import Corduit.Common.Stream.Core

/-!
# What a direction does

Whatever happens, a direction stays as it is or makes one of a few moves: it
passes a test, begins or ends a read or a write, counts, or goes on to its end.
-/

namespace Corduit.Common.Stream

open Transport Word

namespace Phase

/-- A direction that has no chunk in its hands and is not in front of a read. -/
def isResting : Phase → Bool
  | unspawned | top | checked | eof | halfClosing => true
  | _ => false

/-- A direction that will not copy any more. -/
def isOver : Phase → Bool
  | ending _ _ | releasing _ _ | ended _ => true
  | _ => false

/-- A direction that ends otherwise than by a half-close, behind the point where
it sets the flag. -/
def isSettled : Phase → Bool
  | releasing _ _ => true
  | ended outcome => outcome ≠ .halfClosed
  | _ => false

end Phase

/-- The moves of a direction, with the flag before and after, and with or
without a callback. -/
inductive Lane.Moves (finished finished' accounting : Bool) : Lane → Lane → Prop
  | stays (lane : Lane) : Moves finished finished' accounting lane lane
  | passes {lane : Lane} {phase : Phase}
      (before : lane.phase.isResting = true ∨ lane.phase = .inRead)
      (after : phase.isResting = true ∨ phase.isOver = true ∨
        phase = .reading ∧ finished = false)
      (settled : phase.isSettled = true → finished' = true) :
      Moves finished finished' accounting lane { lane with phase := phase }
  | ends {lane : Lane} {phase : Phase} (before : lane.phase.isOver = true)
      (after : phase.isOver = true)
      (settled : phase.isSettled = true → lane.phase.isSettled = true ∨ finished' = true) :
      Moves finished finished' accounting lane { lane with phase := phase }
  | begins {lane : Lane} (before : lane.phase = .reading) :
      Moves finished finished' accounting lane
        { lane with phase := .inRead, reads := lane.reads + 1 }
  | takes {lane : Lane} (before : lane.phase = .inRead) (chunk : List Byte) (some : chunk ≠ []) :
      Moves finished finished' accounting lane
        { lane with phase := .writing chunk, chunks := lane.chunks ++ [chunk] }
  | opens {lane : Lane} {chunk : List Byte} (before : lane.phase = .writing chunk) :
      Moves finished finished' accounting lane
        { lane with phase := .inWrite chunk 0, writes := lane.writes + 1 }
  | writes {lane : Lane} {chunk : List Byte} {written count : Nat}
      (before : lane.phase = .inWrite chunk written) (part : written + count < chunk.length) :
      Moves finished finished' accounting lane
        { lane with
          phase := .inWrite chunk (written + count)
          written := lane.written ++ (chunk.drop written).take count }
  | completes {lane : Lane} {chunk : List Byte} {written count : Nat}
      (before : lane.phase = .inWrite chunk written) (whole : written + count = chunk.length) :
      Moves finished finished' accounting lane
        { lane with
          phase := .counting chunk
          delivered := lane.delivered ++ [chunk]
          written := lane.written ++ (chunk.drop written).take count }
  | breaks {lane : Lane} {chunk : List Byte} {written : Nat} {outcome : Outcome} {ends : List End}
      (before : lane.phase = .inWrite chunk written) :
      Moves finished finished' accounting lane { lane with phase := .ending outcome ends }
  | counts {lane : Lane} {chunk : List Byte} (before : lane.phase = .counting chunk) :
      Moves finished finished' accounting lane
        { lane with phase := .recording chunk, stats := lane.stats + chunk.length }
  | records {lane : Lane} {chunk : List Byte} {phase : Phase}
      (before : lane.phase = .recording chunk)
      (after : phase = .top ∨ ∃ ends, phase = .ending .panicked ends) :
      Moves finished finished' accounting lane
        { lane with
          phase := phase
          records := if accounting then lane.records ++ [chunk.length] else lane.records }

namespace Relay

variable {relay : Relay} {direction : Direction}

@[simp]
theorem lanes_onSide (relay : Relay) (side : End) (change : Side → Side) :
    (relay.onSide side change).lanes = relay.lanes :=
  rfl

@[simp]
theorem lanes_onLane_self (relay : Relay) (direction : Direction) (change : Lane → Lane) :
    (relay.onLane direction change).lanes direction = change (relay.lanes direction) :=
  Function.update_self direction _ relay.lanes

theorem lanes_onLane_of_ne {other : Direction} (different : other ≠ direction)
    (change : Lane → Lane) :
    (relay.onLane direction change).lanes other = relay.lanes other :=
  Function.update_of_ne different _ relay.lanes

@[simp]
theorem lanes_enter_self (relay : Relay) (direction : Direction) (phase : Phase) :
    (relay.enter direction phase).lanes direction =
      { relay.lanes direction with phase := phase } :=
  lanes_onLane_self relay direction _

theorem lanes_enter_of_ne {other : Direction} (different : other ≠ direction) (phase : Phase) :
    (relay.enter direction phase).lanes other = relay.lanes other :=
  lanes_onLane_of_ne different _

theorem lanes_record_self (relay : Relay) (direction : Direction) (bytes : Nat) :
    (relay.record direction bytes).lanes direction =
      { relay.lanes direction with
        records :=
          if relay.accounting direction then (relay.lanes direction).records ++ [bytes]
          else (relay.lanes direction).records } := by
  unfold record
  by_cases hooked : relay.accounting direction = true
  · rw [if_pos hooked, if_pos hooked, lanes_onLane_self]
  · rw [if_neg hooked, if_neg hooked]

theorem lanes_record_of_ne {other : Direction} (different : other ≠ direction) (bytes : Nat) :
    (relay.record direction bytes).lanes other = relay.lanes other := by
  unfold record
  split
  · exact lanes_onLane_of_ne different _
  · rfl

section

variable (relay : Relay) (direction : Direction)

theorem moves_step :
    Lane.Moves relay.finished (relay.step direction).finished (relay.accounting direction)
      (relay.lanes direction) ((relay.step direction).lanes direction) := by
  unfold step
  cases phase : (relay.lanes direction).phase with
  | unspawned | inRead | inWrite _ _ | ended _ => exact .stays _
  | top =>
      dsimp only
      split
      · rw [lanes_enter_self]
        exact .passes (Or.inl (by rw [phase]; rfl)) (Or.inr (Or.inl rfl)) (fun no => nomatch no)
      · rw [lanes_enter_self]
        exact .passes (Or.inl (by rw [phase]; rfl)) (Or.inl rfl) (fun no => nomatch no)
  | checked =>
      dsimp only
      split
      · rw [lanes_enter_self]
        exact .passes (Or.inl (by rw [phase]; rfl)) (Or.inr (Or.inl rfl)) (fun _ => ‹_›)
      · rw [lanes_enter_self]
        exact .passes (Or.inl (by rw [phase]; rfl))
          (Or.inr (Or.inr ⟨rfl, Bool.eq_false_iff.mpr ‹_›⟩)) (fun no => nomatch no)
  | reading =>
      dsimp only
      split
      · rw [lanes_onLane_self]
        exact .begins phase
      · exact .stays _
  | eof =>
      dsimp only
      split
      · rw [lanes_enter_self]
        exact .passes (Or.inl (by rw [phase]; rfl)) (Or.inr (Or.inl rfl)) (fun no => nomatch no)
      · rw [lanes_enter_self]
        exact .passes (Or.inl (by rw [phase]; rfl)) (Or.inl rfl) (fun no => nomatch no)
  | halfClosing =>
      dsimp only
      rw [lanes_enter_self]
      exact .passes (Or.inl (by rw [phase]; rfl)) (Or.inr (Or.inl rfl))
        (fun no => nomatch no)
  | writing chunk =>
      dsimp only
      split
      · rw [lanes_onLane_self]
        exact .opens phase
      · exact .stays _
  | counting chunk =>
      dsimp only
      rw [lanes_onLane_self]
      exact .counts phase
  | recording chunk =>
      dsimp only
      rw [lanes_enter_self, lanes_record_self]
      exact .records phase (Or.inl rfl)
  | ending outcome ends =>
      dsimp only
      rw [lanes_enter_self]
      exact .ends (by rw [phase]; rfl) rfl (fun _ => Or.inr rfl)
  | releasing outcome ends =>
      cases ends with
      | nil =>
          dsimp only
          rw [lanes_enter_self]
          exact .ends (by rw [phase]; rfl) rfl (fun _ => Or.inl (by rw [phase]; rfl))
      | cons side ends =>
          dsimp only
          rw [lanes_enter_self]
          exact .ends (by rw [phase]; rfl) rfl
            (fun _ => Or.inl (by rw [phase]; rfl))

theorem moves_read (result : Except IoError (List Byte)) :
    Lane.Moves relay.finished (relay.read direction result).finished (relay.accounting direction)
      (relay.lanes direction) ((relay.read direction result).lanes direction) := by
  unfold read
  split
  · rename_i phase
    rcases result with error | _ | ⟨byte, bytes⟩
    · dsimp only
      split
      · rw [lanes_enter_self]
        exact .passes (Or.inr phase) (Or.inl rfl) (fun no => nomatch no)
      · rw [lanes_enter_self]
        exact .passes (Or.inr phase) (Or.inr (Or.inl rfl)) (fun no => nomatch no)
    · dsimp only
      rw [lanes_enter_self]
      exact .passes (Or.inr phase) (Or.inl rfl) (fun no => nomatch no)
    · dsimp only
      split
      · exact .stays _
      · rw [lanes_onLane_self]
        exact .takes phase (byte :: bytes) (List.cons_ne_nil byte bytes)
  · exact .stays _

theorem moves_write (result : Except IoError Nat) :
    Lane.Moves relay.finished (relay.write direction result).finished (relay.accounting direction)
      (relay.lanes direction) ((relay.write direction result).lanes direction) := by
  unfold write
  split
  · rename_i chunk written phase
    dsimp only
    split
    · rw [lanes_enter_self]
      exact .breaks phase
    · split
      · exact .stays _
      · split
        · rw [lanes_onLane_self]
          exact .completes phase ‹_›
        · rw [lanes_onLane_self]
          exact .writes phase (by omega)
    · split
      · exact .stays _
      · rw [lanes_enter_self]
        exact .breaks phase
  · exact .stays _

theorem moves_panic :
    Lane.Moves relay.finished (relay.panic direction).finished (relay.accounting direction)
      (relay.lanes direction) ((relay.panic direction).lanes direction) := by
  unfold panic
  split
  · rw [lanes_enter_self]
    exact .passes (Or.inr ‹_›) (Or.inr (Or.inl rfl)) (fun no => nomatch no)
  · rw [lanes_enter_self]
    exact .breaks ‹_›
  · rename_i phase
    rw [lanes_enter_self]
    exact .passes (Or.inl (by rw [phase]; rfl)) (Or.inr (Or.inl rfl)) (fun no => nomatch no)
  · split
    · rw [lanes_enter_self, lanes_record_self]
      exact .records ‹_› (Or.inr ⟨_, rfl⟩)
    · exact .stays _
  · exact .stays _
  · exact .stays _
  · rename_i phase
    rw [lanes_enter_self]
    exact .ends (by rw [phase]; rfl) rfl (fun no => nomatch no)
  · exact .stays _

end

theorem moves_spawn (relay : Relay) (error : Option IoError) (direction : Direction) :
    Lane.Moves relay.finished (relay.spawn error).finished (relay.accounting direction)
      (relay.lanes direction) ((relay.spawn error).lanes direction) := by
  unfold spawn
  split
  · rename_i unspawned
    have different : Direction.upstream ≠ .downstream := nofun
    cases error with
    | none =>
        cases direction with
        | upstream =>
            rw [lanes_enter_of_ne different, lanes_enter_self]
            exact .passes (Or.inl (by rw [unspawned.1]; rfl)) (Or.inl rfl) (fun no => nomatch no)
        | downstream =>
            rw [lanes_enter_self, lanes_enter_of_ne different.symm]
            exact .passes (Or.inl (by rw [unspawned.2]; rfl)) (Or.inl rfl) (fun no => nomatch no)
    | some error =>
        cases direction with
        | upstream =>
            rw [lanes_enter_of_ne different, lanes_enter_self]
            exact .passes (Or.inl (by rw [unspawned.1]; rfl)) (Or.inr (Or.inl rfl)) (fun _ => rfl)
        | downstream =>
            rw [lanes_enter_self, lanes_enter_of_ne different.symm]
            exact .passes (Or.inl (by rw [unspawned.2]; rfl)) (Or.inr (Or.inl rfl)) (fun _ => rfl)
  · exact .stays _

section

variable {other : Direction} (different : other ≠ direction)

include different

theorem lanes_step_of_ne :
    (relay.step direction).lanes other = relay.lanes other := by
  unfold step
  split
  all_goals try split
  all_goals first
    | rfl
    | exact lanes_enter_of_ne different _
    | exact lanes_onLane_of_ne different _
    | exact (lanes_enter_of_ne different _).trans (lanes_record_of_ne different _)

theorem lanes_read_of_ne (result : Except IoError (List Byte)) :
    (relay.read direction result).lanes other = relay.lanes other := by
  unfold read
  split
  · rcases result with error | _ | ⟨byte, bytes⟩
    · dsimp only
      split <;> exact lanes_enter_of_ne different _
    · exact lanes_enter_of_ne different _
    · dsimp only
      split
      · rfl
      · exact lanes_onLane_of_ne different _
  · rfl

theorem lanes_write_of_ne (result : Except IoError Nat) :
    (relay.write direction result).lanes other = relay.lanes other := by
  unfold write
  split
  · dsimp only
    split
    · exact lanes_enter_of_ne different _
    · split
      · rfl
      · split <;> exact lanes_onLane_of_ne different _
    · split
      · rfl
      · exact lanes_enter_of_ne different _
  · rfl

theorem lanes_panic_of_ne :
    (relay.panic direction).lanes other = relay.lanes other := by
  unfold panic
  split
  all_goals try split
  all_goals first
    | rfl
    | exact lanes_enter_of_ne different _
    | exact (lanes_enter_of_ne different _).trans (lanes_record_of_ne different _)

end

theorem lanes_cancel (relay : Relay) : relay.cancel.lanes = relay.lanes := by
  unfold cancel
  split <;> rfl

theorem lanes_runHook (relay : Relay) : relay.runHook.lanes = relay.lanes := by
  unfold runHook
  split <;> rfl

/-- What any step does to a direction. -/
theorem moves_next (relay : Relay) (action : Action) (direction : Direction) :
    Lane.Moves relay.finished (relay.next action).finished (relay.accounting direction)
      (relay.lanes direction) ((relay.next action).lanes direction) := by
  cases action with
  | spawn error => exact moves_spawn relay error direction
  | step moving =>
      by_cases same : direction = moving
      · rw [same]
        exact moves_step relay moving
      · rw [next, lanes_step_of_ne same]
        exact .stays _
  | read moving result =>
      by_cases same : direction = moving
      · rw [same]
        exact moves_read relay moving result
      · rw [next, lanes_read_of_ne same]
        exact .stays _
  | write moving result =>
      by_cases same : direction = moving
      · rw [same]
        exact moves_write relay moving result
      · rw [next, lanes_write_of_ne same]
        exact .stays _
  | panic moving =>
      by_cases same : direction = moving
      · rw [same]
        exact moves_panic relay moving
      · rw [next, lanes_panic_of_ne same]
        exact .stays _
  | cancel =>
      rw [next, lanes_cancel]
      exact .stays _
  | hook =>
      rw [next, lanes_runHook]
      exact .stays _

end Relay

end Corduit.Common.Stream
