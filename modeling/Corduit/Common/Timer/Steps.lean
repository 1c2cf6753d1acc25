import Corduit.Common.Timer.Kept

/-!
# The steps of the wheel

Each step keeps the invariant.  Steps of callers touch the flags and the map,
steps of the scheduler move one entry at a time between the map and its hands.
-/

namespace Corduit.Common.Timer

open Collection

namespace Wheel

variable {wheel : Wheel} {entry : Entry} {deadline : Nat}

namespace Kept

theorem fresh (kept : wheel.Kept) : wheel.inner.nextId + 1 ∉ wheel.issued := fun member =>
  Nat.not_succ_le_self _ (kept.numbered.issuedBelow _ member)

theorem insert (kept : wheel.Kept) (deadline : Nat) (period : Option Nat) :
    (wheel.insert deadline period).Kept := by
  have fresh := kept.fresh
  have mem_issued : ∀ {timer}, timer ∈ (wheel.insert deadline period).issued ↔
      timer = wheel.inner.nextId + 1 ∨ timer ∈ wheel.issued := AList.mem_insert wheel.issued
  have lookup_issued : ∀ timer, (wheel.insert deadline period).issued.lookup timer =
      if timer = wheel.inner.nextId + 1 then some ⟨deadline, period⟩
      else wheel.issued.lookup timer := fun timer => Table.lookup_insert_eq wheel.issued _ timer _
  have unstarted : wheel.started.count (wheel.inner.nextId + 1) = 0 :=
    List.count_eq_zero.mpr fun member => fresh (kept.startedIssued _ member)
  have absent : ¬ wheel.Holds (wheel.inner.nextId + 1) := by
    rintro ⟨id, entry, found, same⟩
    rcases kept.issued_of_lookup found with ⟨schedule, issued⟩
    rw [same] at issued
    exact fresh (AList.lookup_isSome.mp (Option.isSome_of_eq_some issued))
  -- What is known of a timer that was asked for earlier is still known.
  have issued : ∀ timer schedule, wheel.issued.lookup timer = some schedule →
      (wheel.insert deadline period).issued.lookup timer = some schedule := by
    intro timer schedule found
    rw [lookup_issued, if_neg]
    · exact found
    · rintro rfl
      exact fresh (AList.lookup_isSome.mp (Option.isSome_of_eq_some found))
  have known : ∀ entry schedule, wheel.Known entry schedule →
      (wheel.insert deadline period).Known entry schedule := fun entry schedule known =>
    ⟨issued _ schedule known.1, known.2⟩
  have pending : ∀ entry deadline', wheel.Pending entry deadline' →
      (wheel.insert deadline period).Pending entry deadline' := fun entry deadline' pending =>
    pending.mono (issued entry.cancelled) rfl (fun finish member _ => member)
  have holds := @holds_book wheel (wheel.insert deadline period) _ _ _ kept.numbered rfl
  refine
    { kept with
      numbered := ?_, pending := ?_, inHands := ?_, notOften := ?_, startedIssued := ?_,
      finishedIssued := ?_, single := ?_, apart := ?_, noneLost := ?_, cancelledIssued := ?_ }
  · refine kept.numbered.book deadline ?_ ?_ (fun _ => rfl)
      (fun fired => absurd fired (Nat.lt_irrefl 0))
    · intro timer member
      rcases mem_issued.mp member with rfl | member
      · exact Nat.le_refl _
      · exact Nat.le_succ_of_le (kept.numbered.issuedBelow timer member)
    · intro timer below member
      rcases mem_issued.mp member with rfl | member
      · omega
      · exact member
  · intro node waits entry found
    rcases kept.numbered.waits_book waits found with ⟨same, rfl⟩ | ⟨waits, found⟩
    · rw [same]
      refine ⟨⟨⟨deadline, period⟩, ⟨?_, rfl, Schedule.onGrid_first _⟩, Schedule.onGrid_first _,
        ?_⟩, ?_⟩
      · rw [lookup_issued, if_pos rfl]
      · refine Nat.lt_of_le_of_lt (Nat.le_of_eq unstarted) ?_
        rw [Schedule.dueBy_first ⟨deadline, period⟩]
        exact Nat.one_pos
      · intro finish member same
        have known := kept.finishedIssued finish member
        rw [same] at known
        exact absurd known fresh
    · exact pending entry node.deadline (kept.pending node waits entry found)
  · have inHands := kept.inHands
    change (wheel.insert deadline period).InHands wheel.scheduler
    cases phase : wheel.scheduler with
    | waiting | stopped | unwound => trivial
    | running held =>
        rw [phase] at inHands
        rcases inHands with ⟨⟨schedule, knows⟩, started⟩
        exact ⟨⟨schedule, known held schedule knows⟩, started⟩
    | advancing held period' deadline' =>
        rw [phase] at inHands
        rcases inHands with ⟨fired, repeating, schedule, before, knows, onGrid⟩
        exact ⟨fired, repeating, schedule, before, known held schedule knows, onGrid⟩
    | rescheduling held deadline' =>
        rw [phase] at inHands
        exact ⟨inHands.1, pending held deadline' inHands.2⟩
  · intro timer schedule found
    rw [lookup_issued] at found
    by_cases new : timer = wheel.inner.nextId + 1
    · rw [new]
      exact Nat.le_trans (Nat.le_of_eq unstarted) (Nat.zero_le _)
    · rw [if_neg new] at found
      exact kept.notOften timer schedule found
  · exact fun timer member => mem_issued.mpr (Or.inr (kept.startedIssued timer member))
  · exact fun finish member => mem_issued.mpr (Or.inr (kept.finishedIssued finish member))
  · exact fun id other first second => kept.single_book absent
  · rintro timer handsOn held
    rcases (holds timer).mp held with rfl | held
    · rcases handsOn with ⟨entry, taken, same⟩
      rcases kept.issued_of_inHands taken with ⟨schedule, issued⟩
      rw [same] at issued
      exact fresh (AList.lookup_isSome.mp (Option.isSome_of_eq_some issued))
    · exact kept.apart timer handsOn held
  · rintro timer ⟨schedule, found, live⟩
    rw [lookup_issued] at found
    by_cases new : timer = wheel.inner.nextId + 1
    · exact Or.inl ((holds timer).mpr (Or.inl new))
    · rw [if_neg new] at found
      exact (kept.noneLost timer ⟨schedule, found, live⟩).imp_left
        fun held => (holds timer).mpr (Or.inr held)
  · exact fun timer member => mem_issued.mpr (Or.inr (kept.cancelledIssued timer member))

theorem swap (kept : wheel.Kept) (handle : Nat) : (wheel.swap handle).Kept := by
  unfold Wheel.swap
  by_cases issued : handle ∉ wheel.issued
  · rw [if_pos issued]
    exact kept
  rw [if_neg issued]
  by_cases set : handle ∈ wheel.cancelled
  · rw [if_pos set]
    refine { kept with returnedCancelled := ?_, cancelledKnown := ?_ }
    · intro timer member
      rcases List.mem_cons.mp member with rfl | member
      · exact set
      · exact kept.returnedCancelled timer member
    · exact fun timer member => (kept.cancelledKnown timer member).imp_right
        (List.mem_cons_of_mem handle)
  · rw [if_neg set]
    refine
      { kept with
        noneLost := ?_, cancelledIssued := ?_, removingCancelled := ?_,
        returnedCancelled := ?_, cancelledKnown := ?_ }
    · rintro timer ⟨schedule, found, notSet, live⟩
      exact kept.noneLost timer
        ⟨schedule, found, fun member => notSet (List.mem_cons_of_mem handle member), live⟩
    · intro timer member
      rcases List.mem_cons.mp member with rfl | member
      · exact not_not.mp issued
      · exact kept.cancelledIssued timer member
    · intro timer member
      rcases List.mem_cons.mp member with rfl | member
      · exact List.mem_cons_self
      · exact List.mem_cons_of_mem handle (kept.removingCancelled timer member)
    · exact fun timer member => List.mem_cons_of_mem handle (kept.returnedCancelled timer member)
    · intro timer member
      rcases List.mem_cons.mp member with rfl | member
      · exact Or.inl List.mem_cons_self
      · exact (kept.cancelledKnown timer member).imp_left (List.mem_cons_of_mem handle)

theorem remove (kept : wheel.Kept) (handle : Nat) : (wheel.remove handle).Kept := by
  unfold Wheel.remove
  by_cases removing : handle ∈ wheel.removing
  · rw [if_pos removing]
    have stays : ∀ {id entry}, (wheel.inner.entries.erase handle).lookup id = some entry →
        wheel.inner.entries.lookup id = some entry := by
      intro id entry found
      rw [Table.lookup_erase_eq] at found
      split at found
      · cases found
      · exact found
    have cancelled := kept.removingCancelled handle removing
    refine
      { kept with
        numbered := kept.numbered.erase handle
        pending := fun node waits entry found => kept.pending node waits entry (stays found)
        single := fun id other first second found found' =>
          kept.single id other first second (stays found) (stays found')
        apart := ?_, noneLost := ?_, removingCancelled := ?_, returnedCancelled := ?_,
        cancelledKnown := ?_ }
    · rintro timer handsOn ⟨id, entry, found, same⟩
      exact kept.apart timer handsOn ⟨id, entry, stays found, same⟩
    · rintro timer ⟨schedule, issued, notSet, live⟩
      refine (kept.noneLost timer ⟨schedule, issued, notSet, live⟩).imp_left ?_
      rintro ⟨id, entry, found, rfl⟩
      refine ⟨id, entry, (Table.lookup_erase_eq _ _ _).trans ?_, rfl⟩
      rw [if_neg]
      · exact found
      -- An entry under the handle's id has not fired, so it is the cancelled one.
      · rintro rfl
        rcases Nat.eq_zero_or_pos entry.fires with unfired | fired
        · exact notSet (kept.numbered.named id entry found unfired ▸ cancelled)
        · exact kept.numbered.renamed id entry found fired (kept.cancelledIssued id cancelled)
    · exact fun timer member => kept.removingCancelled timer (List.mem_of_mem_erase member)
    · intro timer member
      rcases List.mem_cons.mp member with rfl | member
      · exact cancelled
      · exact kept.returnedCancelled timer member
    · intro timer member
      by_cases same : timer = handle
      · exact Or.inr (List.mem_cons.mpr (Or.inl same))
      · exact (kept.cancelledKnown timer member).imp (List.mem_erase_of_ne same).mpr
          (List.mem_cons_of_mem handle)
  · rw [if_neg removing]
    exact kept

/-- The scheduler holds no entry while it waits. -/
theorem not_handsOn_of_waiting (waiting : wheel.scheduler = .waiting) (timer : Nat) :
    ¬ wheel.HandsOn timer := by
  rintro ⟨entry, taken, _⟩
  rw [waiting] at taken
  cases taken

theorem take (kept : wheel.Kept) (waiting : wheel.scheduler = .waiting) {node : Node}
    {heap : PriorityQueue Node} (popped : wheel.inner.heap.pop? = some (node, heap))
    (due : node.deadline ≤ wheel.clock) : (wheel.take node heap).Kept := by
  have elements := PriorityQueue.elements_of_pop? popped
  have idle : ∀ timer, ¬ wheel.HandsOn timer := not_handsOn_of_waiting waiting
  have waits_of : ∀ {other}, other ∈ heap.elements → other ∈ wheel.inner.heap.elements := by
    intro other waits
    rw [elements]
    exact List.mem_cons_of_mem node waits
  unfold Wheel.take
  cases found : wheel.inner.entries.lookup node.id with
  | none =>
      refine
        { kept with
          numbered := kept.numbered.pop popped ?_
          pending := fun other waits entry stored => kept.pending other (waits_of waits) entry stored }
      intro id entry stored
      refine ⟨?_, stored⟩
      rintro rfl
      rw [found] at stored
      cases stored
  | some entry =>
      have stays : ∀ {id stored}, (wheel.inner.entries.erase node.id).lookup id = some stored →
          id ≠ node.id ∧ wheel.inner.entries.lookup id = some stored := by
        intro id stored other
        rw [Table.lookup_erase_eq] at other
        split at other
        · cases other
        · exact ⟨‹_›, other⟩
      have others : ∀ timer, wheel.Holds timer → timer = entry.cancelled ∨
          ∃ id stored, (wheel.inner.entries.erase node.id).lookup id = some stored ∧
            stored.cancelled = timer := by
        rintro timer ⟨id, stored, here, rfl⟩
        by_cases same : id = node.id
        · rw [same, found] at here
          exact Or.inl (congrArg Entry.cancelled (Option.some.inj here).symm)
        · exact Or.inr ⟨id, stored, (Table.lookup_erase_eq _ _ _).trans (by rw [if_neg same, here]),
            rfl⟩
      have booked : wheel.Pending entry node.deadline :=
        kept.pending node (by rw [elements]; exact List.mem_cons_self) entry found
      by_cases cancelled : entry.cancelled ∈ wheel.cancelled
      · simp only [if_pos cancelled]
        refine
          { kept with
            numbered := kept.numbered.pop popped fun id stored => stays
            pending := fun other waits stored here =>
              kept.pending other (waits_of waits) stored (stays here).2
            single := fun id other first second here here' =>
              kept.single id other first second (stays here).2 (stays here').2
            apart := fun timer handsOn => absurd handsOn (idle timer)
            noneLost := ?_ }
        rintro timer ⟨schedule, issued, notSet, live⟩
        have held := (kept.noneLost timer ⟨schedule, issued, notSet, live⟩).resolve_right
          (idle timer)
        refine Or.inl ((others timer held).resolve_left ?_)
        rintro rfl
        exact notSet cancelled
      · simp only [if_neg cancelled]
        rcases booked with ⟨⟨schedule, known, onGrid, less⟩, _⟩
        have issued : entry.cancelled ∈ wheel.issued :=
          AList.lookup_isSome.mp (Option.isSome_of_eq_some known.1)
        refine
          { kept with
            numbered := kept.numbered.pop popped fun id stored => stays
            pending := ?_
            inHands := ⟨⟨schedule, known⟩, List.mem_cons_self⟩
            notOften := ?_
            startedIssued := ?_
            single := fun id other first second here here' =>
              kept.single id other first second (stays here).2 (stays here').2
            apart := ?_
            noneLost := ?_ }
        · intro other waits stored here
          rcases stays here with ⟨different, here⟩
          refine (kept.pending other (waits_of waits) stored here).mono (fun _ found => found) ?_
            (fun finish member _ => member)
          refine List.count_cons_of_ne ?_
          intro same
          exact different (kept.single other.id node.id stored entry here found same.symm)
        · intro timer schedule' found'
          by_cases same : timer = entry.cancelled
          · rw [same, known.1] at found'
            cases found'
            rw [same]
            refine (Nat.le_of_eq List.count_cons_self).trans ?_
            exact Nat.succ_le_of_lt (Nat.lt_of_lt_of_le less (schedule.dueBy_mono due))
          · refine (Nat.le_of_eq (List.count_cons_of_ne (Ne.symm same))).trans ?_
            exact kept.notOften timer schedule' found'
        · intro timer member
          rcases List.mem_cons.mp member with rfl | member
          · exact issued
          · exact kept.startedIssued timer member
        · rintro timer ⟨taken, same, rfl⟩ ⟨id, stored, here, same'⟩
          cases same
          rcases stays here with ⟨different, here⟩
          exact different (kept.single id node.id stored entry here found same')
        · rintro timer ⟨schedule', issued', notSet, unstarted, _⟩
          have live : wheel.Live timer := by
            refine ⟨schedule', issued', notSet, ?_, ?_⟩
            · exact fun once member => unstarted once (List.mem_cons_of_mem _ member)
            · rw [waiting]
              exact Scheduler.noConfusion
          have held := (kept.noneLost timer live).resolve_right (idle timer)
          rcases others timer held with rfl | held
          · exact Or.inr ⟨entry, rfl, rfl⟩
          · exact Or.inl held

theorem look (kept : wheel.Kept) (waiting : wheel.scheduler = .waiting) : wheel.look.Kept := by
  unfold Wheel.look
  by_cases shut : wheel.inner.shutdown = true
  · rw [if_pos shut]
    refine { kept with inHands := trivial, apart := ?_, noneLost := ?_ }
    · rintro timer ⟨entry, taken, _⟩
      cases taken
    · rintro timer ⟨schedule, issued, notSet, unstarted, _⟩
      have live : wheel.Live timer := by
        refine ⟨schedule, issued, notSet, unstarted, ?_⟩
        rw [waiting]
        exact Scheduler.noConfusion
      exact Or.inl ((kept.noneLost timer live).resolve_right (not_handsOn_of_waiting waiting timer))
  rw [if_neg shut]
  cases popped : wheel.inner.heap.pop? with
  | none => exact kept
  | some least =>
      rcases least with ⟨node, heap⟩
      by_cases early : wheel.clock < node.deadline
      · simp only [if_pos early]
        exact kept
      · simp only [if_neg early]
        exact kept.take waiting popped (Nat.le_of_not_lt early)

theorem finish (kept : wheel.Kept) (running : wheel.scheduler = .running entry) :
    (wheel.finish entry).Kept := by
  have inHands := kept.inHands
  rw [running] at inHands
  rcases inHands with ⟨⟨schedule, known⟩, started⟩
  have absent : ¬ wheel.Holds entry.cancelled :=
    kept.apart entry.cancelled ⟨entry, by rw [running, Scheduler.entry?], rfl⟩
  have handsOn : ∀ timer, wheel.HandsOn timer → timer = entry.cancelled := by
    rintro timer ⟨taken, held, rfl⟩
    rw [running, Scheduler.entry?] at held
    exact congrArg Entry.cancelled (Option.some.inj held).symm
  have handsOn_of : ∀ timer, (wheel.finish entry).HandsOn timer → timer = entry.cancelled := by
    rintro timer ⟨taken, held, rfl⟩
    unfold Wheel.finish at held
    cases period : entry.period with
    | none =>
        simp only [period] at held
        cases held
    | some period' =>
        simp only [period] at held
        cases held
        rfl
  refine
    { kept with
      pending := ?_, inHands := ?_, finishedIssued := ?_, finishedBy := ?_, apart := ?_,
      noneLost := ?_ }
  · intro node waits stored found
    refine (kept.pending node waits stored found).mono (fun _ found => found) rfl ?_
    intro finish member same
    rcases List.mem_cons.mp member with rfl | member
    · exact absurd ⟨node.id, stored, found, same.symm⟩ absent
    · exact member
  · rcases entry with ⟨timer, _ | period, anchor, fires⟩
    · trivial
    · exact ⟨Nat.succ_pos fires, rfl, schedule, anchor, known, known.2.2, rfl⟩
  · intro finish member
    rcases List.mem_cons.mp member with rfl | member
    · exact kept.startedIssued entry.cancelled started
    · exact kept.finishedIssued finish member
  · intro finish member
    rcases List.mem_cons.mp member with rfl | member
    · exact Nat.le_refl _
    · exact kept.finishedBy finish member
  · intro timer taken
    rw [handsOn_of timer taken]
    exact absent
  · rintro timer ⟨schedule', issued, notSet, unstarted, _⟩
    have live : wheel.Live timer := by
      refine ⟨schedule', issued, notSet, unstarted, ?_⟩
      rw [running]
      exact Scheduler.noConfusion
    refine (kept.noneLost timer live).imp_right ?_
    intro held
    cases handsOn timer held
    cases Option.some.inj (known.1.symm.trans issued)
    rcases entry with ⟨timer, _ | period, anchor, fires⟩
    -- What fires only once has been started.
    · exact absurd started (unstarted known.2.1)
    · exact ⟨_, rfl, rfl⟩

theorem advance {period : Nat} (kept : wheel.Kept)
    (advancing : wheel.scheduler = .advancing entry period deadline) :
    (wheel.advance entry period deadline).Kept := by
  have inHands := kept.inHands
  rw [advancing] at inHands
  rcases inHands with ⟨fired, repeating, schedule, before, known, onGrid, rfl⟩
  have next : schedule.OnGrid (before + period) := onGrid.next (known.2.1.trans repeating)
  -- The scheduler keeps hold of the same timer.
  have handsOn : ∀ timer, (wheel.advance entry period (before + period)).HandsOn timer ↔
      wheel.HandsOn timer := by
    intro timer
    unfold HandsOn
    rw [advancing]
    unfold Wheel.advance
    by_cases late : before + period ≤ wheel.clock
    · rw [if_pos late]
      rfl
    · rw [if_neg late]
      constructor
      · rintro ⟨taken, held, rfl⟩
        cases held
        exact ⟨entry, rfl, rfl⟩
      · rintro ⟨taken, held, rfl⟩
        cases held
        exact ⟨_, rfl, rfl⟩
  refine { kept with inHands := ?_, apart := ?_, noneLost := ?_ }
  · unfold Wheel.advance
    by_cases late : before + period ≤ wheel.clock
    · simp only [if_pos late]
      exact ⟨fired, repeating, schedule, before + period, known, next, rfl⟩
    · simp only [if_neg late]
      have ahead := Nat.lt_of_not_le late
      refine ⟨fired, ⟨schedule, ⟨known.1, known.2.1, ?_⟩, next, ?_⟩, ?_⟩
      · rw [Nat.add_sub_cancel]
        exact onGrid
      · exact Nat.lt_of_le_of_lt (kept.notOften entry.cancelled schedule known.1)
          (Schedule.dueBy_lt_of_onGrid next ahead)
      · exact fun finish member _ => Nat.lt_of_le_of_lt (kept.finishedBy finish member) ahead
  · exact fun timer held => kept.apart timer ((handsOn timer).mp held)
  · rintro timer ⟨schedule', issued, notSet, unstarted, _⟩
    have live : wheel.Live timer := by
      refine ⟨schedule', issued, notSet, unstarted, ?_⟩
      rw [advancing]
      exact Scheduler.noConfusion
    exact (kept.noneLost timer live).imp_right (handsOn timer).mpr

theorem reschedule (kept : wheel.Kept)
    (rescheduling : wheel.scheduler = .rescheduling entry deadline) :
    (wheel.reschedule entry deadline).Kept := by
  have inHands := kept.inHands
  rw [rescheduling] at inHands
  rcases inHands with ⟨fired, pending⟩
  have taken : wheel.scheduler.entry? = some entry := by rw [rescheduling, Scheduler.entry?]
  have absent : ¬ wheel.Holds entry.cancelled := kept.apart entry.cancelled ⟨entry, taken, rfl⟩
  have holds := @holds_book wheel (wheel.reschedule entry deadline) _ _ _ kept.numbered rfl
  refine
    { kept with
      numbered := ?_, pending := ?_, inHands := trivial,
      single := fun id other first second => kept.single_book absent, apart := ?_,
      noneLost := ?_ }
  · refine kept.numbered.book deadline ?_ (fun _ _ member => member) ?_ (fun _ => kept.fresh)
    · exact fun timer member => Nat.le_succ_of_le (kept.numbered.issuedBelow timer member)
    · intro unfired
      omega
  · intro node waits stored found
    rcases kept.numbered.waits_book waits found with ⟨same, rfl⟩ | ⟨waits, found⟩
    · rw [same]
      exact pending
    · exact kept.pending node waits stored found
  · rintro timer ⟨held, here, _⟩
    cases here
  · rintro timer ⟨schedule, issued, notSet, unstarted, _⟩
    have live : wheel.Live timer := by
      refine ⟨schedule, issued, notSet, unstarted, ?_⟩
      rw [rescheduling]
      exact Scheduler.noConfusion
    refine Or.inl ((holds timer).mpr ?_)
    rcases kept.noneLost timer live with held | ⟨held, here, rfl⟩
    · exact Or.inr held
    · rw [taken] at here
      cases here
      exact Or.inl rfl

theorem run (kept : wheel.Kept) : wheel.run.Kept := by
  unfold Wheel.run
  split
  · exact kept.look ‹_›
  · exact kept.finish ‹_›
  · exact kept.advance ‹_›
  · exact kept.reschedule ‹_›
  · exact kept
  · exact kept

theorem unwind (kept : wheel.Kept) : wheel.unwind.Kept := by
  unfold Wheel.unwind
  split
  · refine { kept with inHands := trivial, apart := ?_, noneLost := ?_ }
    · rintro timer ⟨entry, taken, _⟩
      cases taken
    · rintro timer ⟨_, _, _, _, alive⟩
      exact absurd rfl alive
  · exact kept

theorem elapse (kept : wheel.Kept) (time : Nat) :
    { wheel with clock := wheel.clock + time }.Kept :=
  { kept with
    notOften := fun timer schedule found =>
      (kept.notOften timer schedule found).trans (schedule.dueBy_mono (Nat.le_add_right _ _))
    finishedBy := fun finish member =>
      (kept.finishedBy finish member).trans (Nat.le_add_right _ _) }

/-- Every step keeps the invariant. -/
theorem next (kept : wheel.Kept) (action : Action) : (wheel.next action).Kept := by
  cases action with
  | after now delay =>
      change Kept (if now ≤ wheel.clock then wheel.insert (now + delay) none else wheel)
      split
      · exact kept.insert _ _
      · exact kept
  | every now period =>
      change Kept (if now ≤ wheel.clock then wheel.insert (now + period) (some period) else wheel)
      split
      · exact kept.insert _ _
      · exact kept
  | swap handle => exact kept.swap handle
  | remove handle => exact kept.remove handle
  | schedule => exact kept.run
  | unwind => exact kept.unwind
  | shutDown => exact { kept with numbered := { kept.numbered with } }
  | elapse time => exact kept.elapse time

theorem booked (kept : wheel.Kept) : wheel.Booked where
  oneNode := fun _ _ found => kept.numbered.countP_eq_one found
  noneLost := kept.noneLost
  notOften := kept.notOften

theorem onGrid (kept : wheel.Kept) : wheel.OnGrid := by
  intro node waits entry found
  rcases kept.pending node waits entry found with ⟨⟨schedule, known, onGrid, _⟩, after⟩
  exact ⟨⟨schedule, known.1, known.2.1, onGrid⟩, after⟩

end Kept

end Wheel

end Corduit.Common.Timer
