import Corduit.Common.Stream.Moves

/-!
# What the relay delivers and counts

A direction writes what it has read, chunk by chunk, and counts a chunk when it
has written all of it.  Once the flag is set, a direction that has passed the
test of the flag finishes its round and does not begin another.
-/

namespace Corduit.Common.Stream

open Transition Word

namespace Lane

/-- Everything that was read was written. -/
def Whole (lane : Lane) : Prop :=
  lane.chunks = lane.delivered ∧ lane.written = lane.delivered.flatten

/-- Of the last chunk that was read, the first bytes were written. -/
def Behind (lane : Lane) (chunk : List Byte) (count : Nat) : Prop :=
  lane.chunks = lane.delivered ++ [chunk] ∧
    lane.written = lane.delivered.flatten ++ chunk.take count

/-- What was written of what was read, phase by phase. -/
def Copies (lane : Lane) : Prop :=
  match lane.phase with
  | .writing chunk => lane.Behind chunk 0
  | .inWrite chunk written => lane.Behind chunk written
  | .ending _ _ | .releasing _ _ | .ended _ => lane.Whole ∨ ∃ chunk count, lane.Behind chunk count
  | _ => lane.Whole

/-- The bytes of the chunks that were written whole. -/
def bytes (lane : Lane) : Nat :=
  (lane.delivered.map List.length).sum

end Lane

namespace Phase

/-- What is written and not yet counted. -/
def uncounted : Phase → Nat
  | counting chunk => chunk.length
  | _ => 0

/-- What is written and not yet reported. -/
def unrecorded : Phase → List Nat
  | counting chunk | recording chunk => [chunk.length]
  | _ => []

/-- The reads that a direction begins although the flag is set. -/
def readsLeft : Phase → Nat
  | reading => 1
  | _ => 0

/-- The writes that a direction begins although the flag is set. -/
def writesLeft : Phase → Nat
  | reading | inRead | writing _ => 1
  | _ => 0

end Phase

namespace Lane

/-- The counts agree with the chunks that were written whole. -/
def Counts (accounting : Bool) (lane : Lane) : Prop :=
  lane.stats + lane.phase.uncounted = lane.bytes ∧
    if accounting = true then
      lane.records ++ lane.phase.unrecorded = lane.delivered.map List.length
    else lane.records = []

/-- What a direction wrote is a prefix of what it read, of which at most the
last chunk is missing, and both counts are the bytes of the chunks that it
wrote whole, up to the chunk that it is just counting. -/
structure Exact (accounting : Bool) (lane : Lane) : Prop where
  written : lane.written <+: lane.chunks.flatten
  lastMissing : lane.chunks = lane.delivered ∨ ∃ last, lane.chunks = lane.delivered ++ [last]
  whole : lane.delivered.flatten <+: lane.written
  stats : lane.stats + lane.phase.uncounted = lane.bytes
  records : if accounting = true then
      lane.records ++ lane.phase.unrecorded = lane.delivered.map List.length
    else lane.records = []

variable {finished finished' accounting : Bool} {lane later : Lane}

theorem Copies.whole (copies : lane.Copies)
    (resting : lane.phase.isResting = true ∨ lane.phase = .inRead ∨ lane.phase = .reading) :
    lane.Whole := by
  unfold Copies at copies
  cases phase : lane.phase <;> rw [phase] at copies resting
  all_goals first
    | exact copies
    | exact absurd resting (by simp [Phase.isResting])

theorem copies_of_whole (whole : lane.Whole)
    (phase : lane.phase.isResting = true ∨ lane.phase.isOver = true ∨ lane.phase = .inRead ∨
      lane.phase = .reading) : lane.Copies := by
  unfold Copies
  cases same : lane.phase <;> rw [same] at phase
  all_goals first
    | exact whole
    | exact Or.inl whole
    | exact absurd phase (by simp [Phase.isResting, Phase.isOver])

theorem copies_iff_of_over (past : lane.phase.isOver = true) :
    lane.Copies ↔ lane.Whole ∨ ∃ chunk count, lane.Behind chunk count := by
  unfold Copies
  cases phase : lane.phase <;> rw [phase] at past
  all_goals first
    | exact Iff.rfl
    | cases past

theorem take_append_take_drop (chunk : List Byte) (written count : Nat) :
    chunk.take written ++ (chunk.drop written).take count = chunk.take (written + count) :=
  List.take_add.symm

/-- Every move keeps what was written a prefix of what was read. -/
theorem Copies.moves (copies : lane.Copies)
    (moves : Lane.Moves finished finished' accounting lane later) : later.Copies := by
  cases moves with
  | stays => exact copies
  | passes before after settled =>
      have whole := copies.whole (before.imp_right Or.inl)
      refine copies_of_whole whole ?_
      rcases after with resting | past | ⟨reading, _⟩
      · exact Or.inl resting
      · exact Or.inr (Or.inl past)
      · exact Or.inr (Or.inr (Or.inr reading))
  | ends before after settled => exact (copies_iff_of_over after).mpr ((copies_iff_of_over before).mp copies)
  | begins before => exact copies.whole (Or.inr (Or.inr before))
  | takes before chunk some =>
      have whole := copies.whole (Or.inr (Or.inl before))
      refine ⟨congrArg (· ++ [chunk]) whole.1, ?_⟩
      rw [List.take_zero, List.append_nil]
      exact whole.2
  | opens before =>
      unfold Copies at copies
      rw [before] at copies
      exact copies
  | writes before part =>
      unfold Copies at copies
      rw [before] at copies
      refine ⟨copies.1, ?_⟩
      dsimp only
      rw [copies.2, List.append_assoc, take_append_take_drop]
  | completes before complete =>
      unfold Copies at copies
      rw [before] at copies
      refine ⟨copies.1, ?_⟩
      dsimp only
      rw [copies.2, List.append_assoc, take_append_take_drop, complete, List.take_length,
        List.flatten_append, List.flatten_singleton]
  | breaks before =>
      unfold Copies at copies
      rw [before] at copies
      exact Or.inr ⟨_, _, copies⟩
  | counts before =>
      unfold Copies at copies
      rw [before] at copies
      exact copies
  | records before after =>
      unfold Copies at copies
      rw [before] at copies
      rcases after with rfl | ⟨ends, rfl⟩
      · exact copies
      · exact Or.inl copies

theorem uncounted_of_resting {phase : Phase}
    (idle : phase.isResting = true ∨ phase.isOver = true ∨ phase = .inRead ∨ phase = .reading) :
    phase.uncounted = 0 ∧ phase.unrecorded = [] := by
  cases phase <;> first
    | exact ⟨rfl, rfl⟩
    | exact absurd idle (by simp [Phase.isResting, Phase.isOver])

theorem Counts.of_same (counts : lane.Counts accounting) (delivered : later.delivered = lane.delivered)
    (stats : later.stats = lane.stats) (records : later.records = lane.records)
    (before : lane.phase.uncounted = 0 ∧ lane.phase.unrecorded = [])
    (after : later.phase.uncounted = 0 ∧ later.phase.unrecorded = []) :
    later.Counts accounting := by
  unfold Counts bytes at counts ⊢
  rw [before.1, before.2] at counts
  rw [after.1, after.2, delivered, stats, records]
  exact counts

/-- Every move keeps the counts. -/
theorem Counts.moves (counts : lane.Counts accounting)
    (moves : Lane.Moves finished finished' accounting lane later) : later.Counts accounting := by
  cases moves with
  | stays => exact counts
  | passes before after settled =>
      refine counts.of_same rfl rfl rfl (uncounted_of_resting ?_) (uncounted_of_resting ?_)
      · exact before.imp_right fun inRead => Or.inr (Or.inl inRead)
      · rcases after with resting | past | ⟨reading, _⟩
        · exact Or.inl resting
        · exact Or.inr (Or.inl past)
        · exact Or.inr (Or.inr (Or.inr reading))
  | ends before after settled =>
      exact counts.of_same rfl rfl rfl (uncounted_of_resting (Or.inr (Or.inl before)))
        (uncounted_of_resting (Or.inr (Or.inl after)))
  | begins before =>
      exact counts.of_same rfl rfl rfl (uncounted_of_resting (Or.inr (Or.inr (Or.inr before))))
        ⟨rfl, rfl⟩
  | takes before chunk some =>
      exact counts.of_same rfl rfl rfl
        (uncounted_of_resting (Or.inr (Or.inr (Or.inl before)))) ⟨rfl, rfl⟩
  | opens before => exact counts.of_same rfl rfl rfl (by rw [before]; exact ⟨rfl, rfl⟩) ⟨rfl, rfl⟩
  | writes before part =>
      exact counts.of_same rfl rfl rfl (by rw [before]; exact ⟨rfl, rfl⟩) ⟨rfl, rfl⟩
  | breaks before => exact counts.of_same rfl rfl rfl (by rw [before]; exact ⟨rfl, rfl⟩) ⟨rfl, rfl⟩
  | @completes chunk written count before complete =>
      unfold Counts bytes at counts ⊢
      rw [before] at counts
      simp only [Phase.uncounted, Phase.unrecorded, List.append_nil, List.map_append,
        List.map_singleton, List.sum_append, List.sum_singleton] at counts ⊢
      refine ⟨by omega, ?_⟩
      split
      · rename_i hooked
        rw [if_pos hooked] at counts
        rw [counts.2]
      · rename_i hooked
        rw [if_neg hooked] at counts
        exact counts.2
  | counts before =>
      unfold Counts bytes at counts ⊢
      rw [before] at counts
      exact counts
  | @records chunk phase before after =>
      have idle : phase.uncounted = 0 ∧ phase.unrecorded = [] := by
        rcases after with rfl | ⟨ends, rfl⟩ <;> exact ⟨rfl, rfl⟩
      unfold Counts bytes at counts ⊢
      rw [before] at counts
      dsimp only
      rw [idle.1, idle.2]
      refine ⟨counts.1, ?_⟩
      split
      · rename_i hooked
        rw [if_pos hooked] at counts
        rw [List.append_nil]
        exact counts.2
      · rename_i hooked
        rw [if_neg hooked] at counts
        exact counts.2

/-- What the invariants of a direction say together. -/
theorem Copies.exact (copies : lane.Copies) (counts : lane.Counts accounting) :
    lane.Exact accounting := by
  have either : lane.Whole ∨ ∃ chunk count, lane.Behind chunk count := by
    unfold Copies at copies
    cases phase : lane.phase <;> rw [phase] at copies
    all_goals first
      | exact copies
      | exact Or.inl copies
      | exact Or.inr ⟨_, _, copies⟩
  rcases either with ⟨chunks, written⟩ | ⟨chunk, count, chunks, written⟩
  · refine ⟨?_, Or.inl chunks, ?_, counts.1, counts.2⟩
    · rw [chunks, written]
    · rw [written]
  · refine ⟨?_, Or.inr ⟨chunk, chunks⟩, ?_, counts.1, counts.2⟩
    · rw [chunks, written, List.flatten_append, List.flatten_singleton]
      exact (List.prefix_append_right_inj _).mpr (List.take_prefix count chunk)
    · rw [written]
      exact List.prefix_append _ _

theorem Moves.rounds (moves : Lane.Moves true finished' accounting lane later) :
    later.reads + later.phase.readsLeft ≤ lane.reads + lane.phase.readsLeft ∧
      later.writes + later.phase.writesLeft ≤ lane.writes + lane.phase.writesLeft := by
  cases moves with
  | stays => exact ⟨Nat.le_refl _, Nat.le_refl _⟩
  | @passes phase before after settled =>
      have none : phase.readsLeft = 0 ∧ phase.writesLeft = 0 := by
        rcases after with resting | past | ⟨_, set⟩
        · cases phase <;> first | exact ⟨rfl, rfl⟩ | cases resting
        · cases phase <;> first | exact ⟨rfl, rfl⟩ | cases past
        · cases set
      dsimp only
      rw [none.1, none.2]
      exact ⟨Nat.le_add_right _ _, Nat.le_add_right _ _⟩
  | @ends phase before after settled =>
      have none : phase.readsLeft = 0 ∧ phase.writesLeft = 0 := by
        cases phase <;> first | exact ⟨rfl, rfl⟩ | cases after
      dsimp only
      rw [none.1, none.2]
      exact ⟨Nat.le_add_right _ _, Nat.le_add_right _ _⟩
  | begins before =>
      rw [before]
      exact ⟨Nat.le_refl _, Nat.le_refl _⟩
  | takes before chunk some =>
      rw [before]
      exact ⟨Nat.le_refl _, Nat.le_refl _⟩
  | opens before =>
      rw [before]
      exact ⟨Nat.le_refl _, Nat.le_refl _⟩
  | writes before part => exact ⟨Nat.le_add_right _ _, Nat.le_add_right _ _⟩
  | completes before complete => exact ⟨Nat.le_add_right _ _, Nat.le_add_right _ _⟩
  | breaks before => exact ⟨Nat.le_add_right _ _, Nat.le_add_right _ _⟩
  | counts before => exact ⟨Nat.le_add_right _ _, Nat.le_add_right _ _⟩
  | records before after =>
      rcases after with rfl | ⟨ends, rfl⟩ <;>
        exact ⟨Nat.le_add_right _ _, Nat.le_add_right _ _⟩

/-- A direction is behind the point where it sets the flag only if it is set. -/
theorem Moves.settled (moves : Lane.Moves finished finished' accounting lane later)
    (monotone : finished = true → finished' = true)
    (before : lane.phase.isSettled = true → finished = true)
    (after : later.phase.isSettled = true) : finished' = true := by
  cases moves with
  | stays => exact monotone (before after)
  | passes _ _ settled => exact settled after
  | ends _ _ settled => exact (settled after).elim (fun held => monotone (before held)) id
  | begins | takes | opens | writes | completes | breaks | counts => cases after
  | records _ phase =>
      rcases phase with rfl | ⟨ends, rfl⟩ <;> cases after

/-- The direction ended, and not by a half-close. -/
def EndedOtherwise (lane : Lane) : Prop :=
  ∃ outcome, lane.phase = .ended outcome ∧ outcome ≠ .halfClosed

theorem EndedOtherwise.isSettled (ended : lane.EndedOtherwise) : lane.phase.isSettled = true := by
  rcases ended with ⟨outcome, phase, other⟩
  rw [phase, Phase.isSettled]
  exact decide_eq_true other

theorem readsLeft_le_one (phase : Phase) : phase.readsLeft ≤ 1 := by
  cases phase <;> first | exact Nat.le_refl 1 | exact Nat.zero_le 1

theorem writesLeft_le_one (phase : Phase) : phase.writesLeft ≤ 1 := by
  cases phase <;> first | exact Nat.le_refl 1 | exact Nat.zero_le 1

end Lane

namespace Relay

variable {relay : Relay}

/-- The callbacks stay as they are, and the flag stays set. -/
def Precedes (relay later : Relay) : Prop :=
  later.accounting = relay.accounting ∧ (relay.finished = true → later.finished = true)

section

variable (relay : Relay) (direction : Direction)

theorem precedes_record (bytes : Nat) (phase : Phase) :
    relay.Precedes ((relay.record direction bytes).enter direction phase) := by
  unfold record
  split <;> exact ⟨rfl, id⟩

theorem precedes_step :
    relay.Precedes (relay.step direction) := by
  unfold step
  split
  all_goals try split
  all_goals first
    | exact ⟨rfl, id⟩
    | exact ⟨rfl, fun _ => rfl⟩
    | exact precedes_record relay direction _ _

theorem precedes_read (result : Except _ (List Byte)) :
    relay.Precedes (relay.read direction result) := by
  unfold read
  split
  · dsimp only
    split
    · exact ⟨rfl, id⟩
    · split <;> exact ⟨rfl, id⟩
    · split <;> exact ⟨rfl, id⟩
  · exact ⟨rfl, id⟩

theorem precedes_write (result : Except _ Nat) :
    relay.Precedes (relay.write direction result) := by
  unfold write
  split
  · dsimp only
    split
    · exact ⟨rfl, id⟩
    · split
      · exact ⟨rfl, id⟩
      · split <;> exact ⟨rfl, id⟩
    · split <;> exact ⟨rfl, id⟩
  · exact ⟨rfl, id⟩

theorem precedes_panic :
    relay.Precedes (relay.panic direction) := by
  unfold panic
  split
  all_goals try split
  all_goals first
    | exact ⟨rfl, id⟩
    | exact precedes_record relay direction _ _

end

theorem precedes_spawn (relay : Relay) (error : Option _) :
    relay.Precedes (relay.spawn error) := by
  unfold spawn
  split
  · cases error with
    | none => exact ⟨rfl, id⟩
    | some error => exact ⟨rfl, fun _ => rfl⟩
  · exact ⟨rfl, id⟩

theorem precedes_cancel (relay : Relay) : relay.Precedes relay.cancel := by
  unfold cancel
  split <;> exact ⟨rfl, id⟩

theorem precedes_runHook (relay : Relay) : relay.Precedes relay.runHook := by
  unfold runHook
  split <;> exact ⟨rfl, id⟩

theorem precedes_next (relay : Relay) (action : Action) : relay.Precedes (relay.next action) := by
  cases action with
  | spawn error => exact precedes_spawn relay error
  | step direction => exact precedes_step relay direction
  | read direction result => exact precedes_read relay direction result
  | write direction result => exact precedes_write relay direction result
  | panic direction => exact precedes_panic relay direction
  | cancel => exact precedes_cancel relay
  | hook => exact precedes_runHook relay

/-- The invariant of both directions. -/
structure Kept (accounting : Direction → Bool) (relay : Relay) : Prop where
  callbacks : relay.accounting = accounting
  copies : ∀ direction, (relay.lanes direction).Copies
  counts : ∀ direction, (relay.lanes direction).Counts (accounting direction)
  settled : ∀ direction, (relay.lanes direction).phase.isSettled = true → relay.finished = true

theorem Kept.next {accounting : Direction → Bool} (kept : relay.Kept accounting)
    (action : Action) : (relay.next action).Kept accounting := by
  have precedes := relay.precedes_next action
  refine ⟨precedes.1.trans kept.callbacks, ?_, ?_, ?_⟩
  · exact fun direction => (kept.copies direction).moves (moves_next relay action direction)
  · intro direction
    have moves := moves_next relay action direction
    rw [kept.callbacks] at moves
    exact (kept.counts direction).moves moves
  · exact fun direction =>
      (moves_next relay action direction).settled precedes.2 (kept.settled direction)

theorem kept_start (kinds : End → SideKind) (accounting : Direction → Bool) :
    (start kinds accounting).Kept accounting where
  callbacks := rfl
  copies := fun _ => ⟨rfl, rfl⟩
  counts := by
    intro direction
    refine ⟨rfl, ?_⟩
    split <;> rfl
  settled := fun _ no => nomatch no

theorem kept_run (kinds : End → SideKind) (accounting : Direction → Bool)
    (actions : List Action) : (run next (start kinds accounting) actions).Kept accounting :=
  run_invariant _ (fun _ action kept => kept.next action) (kept_start kinds accounting) actions

/-- The flag is set, and a direction will have begun so many reads and writes at
most when it ends. -/
def Within (direction : Direction) (reads writes : Nat) (relay : Relay) : Prop :=
  relay.finished = true ∧
    (relay.lanes direction).reads + (relay.lanes direction).phase.readsLeft ≤ reads ∧
    (relay.lanes direction).writes + (relay.lanes direction).phase.writesLeft ≤ writes

theorem Within.next {direction : Direction} {reads writes : Nat}
    (within : relay.Within direction reads writes) (action : Action) :
    (relay.next action).Within direction reads writes := by
  have moves := moves_next relay action direction
  rw [within.1] at moves
  exact ⟨(relay.precedes_next action).2 within.1, moves.rounds.1.trans within.2.1,
    moves.rounds.2.trans within.2.2⟩

/-- Once the flag is set, a run has one more round for each direction at most. -/
theorem rounds_run (set : relay.finished = true) (actions : List Action) (direction : Direction) :
    ((run next relay actions).lanes direction).reads ≤ (relay.lanes direction).reads + 1 ∧
      ((run next relay actions).lanes direction).writes ≤ (relay.lanes direction).writes + 1 := by
  have initially : relay.Within direction _ _ := ⟨set, Nat.le_refl _, Nat.le_refl _⟩
  have kept := run_invariant _ (fun _ action within => within.next action) initially actions
  have oneRead := Lane.readsLeft_le_one (relay.lanes direction).phase
  have oneWrite := Lane.writesLeft_le_one (relay.lanes direction).phase
  have reads := kept.2.1
  have writes := kept.2.2
  omega

/-- Once the flag is set, a direction that is back at the top of its loop leaves it. -/
theorem isOver_of_top {direction : Direction} (set : relay.finished = true)
    (top : (relay.lanes direction).phase = .top) :
    (((relay.step direction).step direction).lanes direction).phase.isOver = true := by
  by_cases cancelled : relay.cancelled = true
  · have once : (relay.step direction) = relay.enter direction
        (.ending (.failed cancelledError) [direction.src, direction.dst]) := by
      rw [step, top]
      exact if_pos cancelled
    rw [once, step, lanes_enter_self]
    dsimp only
    rw [lanes_enter_self]
    rfl
  · have once : (relay.step direction) = relay.enter direction .checked := by
      rw [step, top]
      exact if_neg cancelled
    have flag : (relay.enter direction .checked).finished = true := set
    rw [once, step, lanes_enter_self]
    dsimp only
    rw [if_pos flag, lanes_enter_self]
    rfl

theorem result_eq_ok {up down : Nat} (returned : relay.result? = some (.ok (up, down))) :
    up = (relay.lanes .upstream).stats ∧ down = (relay.lanes .downstream).stats ∧
      ∀ direction, ∃ outcome, (relay.lanes direction).phase = .ended outcome := by
  unfold result? at returned
  split at returned
  · cases returned
  · cases returned
  · cases returned
  · rename_i up' down' upstream downstream
    split at returned
    · cases returned
    · split at returned
      · cases returned
      · cases returned
      · cases returned
        refine ⟨rfl, rfl, ?_⟩
        rintro (_ | _)
        · exact ⟨_, upstream⟩
        · exact ⟨_, downstream⟩
  · cases returned

/-- Whatever the transports, the callbacks, the token and the scheduling do: a
direction delivers a prefix of what it reads, with at most the last chunk
missing; what it counts and reports, and what the relay returns, are the bytes
of the chunks that were written whole; and when the other direction has ended
otherwise than by a half-close, it begins at most one more read and one more
write, and leaves its loop when it comes back to the top. -/
theorem run_exact (kinds : End → SideKind) (accounting : Direction → Bool)
    (actions : List Action) (direction : Direction) :
    ((run next (start kinds accounting) actions).lanes direction).Exact (accounting direction) ∧
      (∀ up down, (run next (start kinds accounting) actions).result? = some (.ok (up, down)) →
        up = ((run next (start kinds accounting) actions).lanes .upstream).bytes ∧
        down = ((run next (start kinds accounting) actions).lanes .downstream).bytes) ∧
      (((run next (start kinds accounting) actions).lanes direction.other).EndedOtherwise →
        ∀ later,
          ((run next (start kinds accounting) (actions ++ later)).lanes direction).reads ≤
              ((run next (start kinds accounting) actions).lanes direction).reads + 1 ∧
            ((run next (start kinds accounting) (actions ++ later)).lanes direction).writes ≤
              ((run next (start kinds accounting) actions).lanes direction).writes + 1 ∧
            (((run next (start kinds accounting) (actions ++ later)).lanes direction).phase = .top →
              ((run next (start kinds accounting) (actions ++ later ++
                [.step direction, .step direction])).lanes direction).phase.isOver = true)) := by
  have kept := kept_run kinds accounting actions
  refine ⟨(kept.copies direction).exact (kept.counts direction), ?_, ?_⟩
  · intro up down returned
    rcases result_eq_ok returned with ⟨rfl, rfl, ended⟩
    have counted : ∀ direction,
        ((run next (start kinds accounting) actions).lanes direction).stats =
          ((run next (start kinds accounting) actions).lanes direction).bytes := by
      intro direction
      rcases ended direction with ⟨outcome, phase⟩
      have counts := (kept.counts direction).1
      rw [phase] at counts
      exact counts
    exact ⟨counted .upstream, counted .downstream⟩
  · intro ended later
    have set := kept.settled direction.other ended.isSettled
    have still : (run next (start kinds accounting) (actions ++ later)).finished = true := by
      rw [run_append]
      exact run_invariant (fun relay : Relay => relay.finished = true)
        (fun relay action => (relay.precedes_next action).2) set later
    have rounds := rounds_run set later direction
    rw [← run_append] at rounds
    refine ⟨rounds.1, rounds.2, fun top => ?_⟩
    rw [run_append _ (actions ++ later)]
    exact isOver_of_top still top

/-- The client's connection is reset while the downstream direction is about to
read; it reads once more, writes once more and leaves. -/
theorem run_exact_reset :
    ((run next (start (fun _ => .shared) (fun _ => true))
      ([.spawn none, .step .upstream, .step .upstream, .step .upstream, .step .downstream,
        .step .downstream, .read .upstream (.error ⟨.connectionReset, "reset"⟩), .step .upstream,
        .step .upstream, .step .upstream, .step .upstream] ++
       [.step .downstream, .read .downstream (.ok [1, 2]), .step .downstream,
        .write .downstream (.ok 2), .step .downstream, .step .downstream])).lanes
      .downstream).reads ≤ 0 + 1 :=
  ((run_exact _ _ _ .downstream).2.2
    ⟨.failed ⟨.connectionReset, "reset"⟩, by decide, by decide⟩ _).1

end Relay

end Corduit.Common.Stream
