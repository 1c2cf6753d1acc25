import Corduit.Engine.Inbound.MemDuplex.Traffic

/-!
# Waiting at a pipe

A read waits for bytes and a write for room.  Accepting bytes notifies; taking
them does not, so that a write which waits for room is left to its timeout by
the very read that makes it.  And a write that is woken accepts without looking
at the flags again.  Those two steps, and no others, spoil a run.
-/

namespace Corduit.Engine.Inbound.MemDuplex

open Transition Transition.Monitor Word

/-- The waiting call could go on: there are bytes for it, or room. -/
def Ready (capacity : Nat) : Pending → Traffic → Prop
  | .read isA _, traffic => traffic.state.myReadBuf isA ≠ []
  | .write isA _, traffic => (traffic.state.myWriteBuf isA).length < capacity

instance (capacity : Nat) : ∀ pending traffic, Decidable (Ready capacity pending traffic)
  | .read isA _, traffic => inferInstanceAs (Decidable (traffic.state.myReadBuf isA ≠ []))
  | .write isA _, traffic =>
      inferInstanceAs (Decidable ((traffic.state.myWriteBuf isA).length < capacity))

/-- `mem_duplex`: the capacity of a pipe. -/
def memDuplexCapacity (capacity : Nat) : Nat :=
  max capacity 1

/-- `mem_duplex`: a pipe at which nobody waits. -/
def memDuplex : Monitor.Config Traffic Pending :=
  ⟨Traffic.initial, []⟩

/-- A bounded queue in each direction, with nothing behind its writer's
shutdown and no end before it is empty, and nobody left waiting. -/
structure Proper (capacity : Nat) (config : Monitor.Config Traffic Pending) : Prop where
  queued : ∀ isA, (config.shared.record isA).taken ++ config.shared.state.myWriteBuf isA =
    (config.shared.record isA).accepted
  bounded : ∀ isA, (config.shared.state.myWriteBuf isA).length ≤ capacity
  sealed : config.shared.Sealed
  drained : ∀ isA, ∀ taken ∈ (config.shared.record isA).ends,
    ∃ before, (config.shared.record isA).closing = some before ∧ before <+: taken
  noneStuck : NoneStuck (Ready capacity) config

/-- No write waits un-notified at an end. -/
def NoWriteWaits (config : Monitor.Config Traffic Pending) (isA : Bool) : Prop :=
  ∀ waiter ∈ config.waiting, waiter.notified = false → ∀ bytes, waiter.call ≠ .write isA bytes

/-- A read that takes bytes takes them from nobody who waits un-notified for
room. -/
def Unawaited (config : Monitor.Config Traffic Pending) : Action Call → Prop
  | .enter (.read isA room) =>
      room ≠ 0 → config.shared.state.myReadBuf isA ≠ [] → NoWriteWaits config (!isA)
  | .resume index =>
      match config.waiting[index]? with
      | some ⟨.read isA room, true⟩ =>
          room ≠ 0 → config.shared.state.myReadBuf isA ≠ [] → NoWriteWaits config (!isA)
      | _ => True
  | _ => True

/-- A write that has waited finds its half open, or no room. -/
def Unshut (capacity : Nat) (config : Monitor.Config Traffic Pending) : Action Call → Prop
  | .resume index =>
      match config.waiting[index]? with
      | some ⟨.write isA bytes, true⟩ =>
          bytes ≠ [] → config.shared.state.myWriteClosed isA = true →
            capacity ≤ (config.shared.state.myWriteBuf isA).length
      | _ => True
  | _ => True

variable {capacity : Nat} {traffic later : Traffic} {config : Monitor.Config Traffic Pending}

section

variable {index : Nat} {isA : Bool}

theorem unawaited_resume_read {room : Nat}
    (located : config.waiting[index]? = some ⟨.read isA room, true⟩) :
    Unawaited config (.resume index) ↔
      (room ≠ 0 → config.shared.state.myReadBuf isA ≠ [] → NoWriteWaits config (!isA)) := by
  rw [Unawaited, located]

theorem unawaited_resume_write {bytes : List Byte}
    (located : config.waiting[index]? = some ⟨.write isA bytes, true⟩) :
    Unawaited config (.resume index) := by
  rw [Unawaited, located]
  trivial

theorem unshut_resume_read {room : Nat}
    (located : config.waiting[index]? = some ⟨.read isA room, true⟩) :
    Unshut capacity config (.resume index) := by
  rw [Unshut, located]
  trivial

theorem unshut_resume_write {bytes : List Byte}
    (located : config.waiting[index]? = some ⟨.write isA bytes, true⟩) :
    Unshut capacity config (.resume index) ↔
      (bytes ≠ [] → config.shared.state.myWriteClosed isA = true →
        capacity ≤ (config.shared.state.myWriteBuf isA).length) := by
  rw [Unshut, located]

end

theorem resume_of_ne {index : Nat}
    (nobody : ∀ call, config.waiting[index]? ≠ some ⟨call, true⟩) :
    Unawaited config (.resume index) ∧ Unshut capacity config (.resume index) := by
  cases located : config.waiting[index]? with
  | none =>
      rw [Unawaited, Unshut, located]
      exact ⟨trivial, trivial⟩
  | some waiter =>
      rcases waiter with ⟨call, _ | _⟩
      · rw [Unawaited, Unshut, located]
        cases call <;> exact ⟨trivial, trivial⟩
      · exact absurd located (nobody call)

theorem Record.sealed_congr {record after : Record} (accepted : after.accepted = record.accepted)
    (closing : after.closing = record.closing) : after.Sealed ↔ record.Sealed := by
  unfold Record.Sealed
  rw [accepted, closing]

namespace Traffic

theorem sealed_of_update (sealed : traffic.Sealed) (isA : Bool) {state : DuplexState}
    {record : Record} :
    Sealed ⟨state, Function.update traffic.record isA record⟩ ↔ record.Sealed := by
  constructor
  · intro holds
    have here := holds isA
    dsimp only at here
    rwa [Function.update_self] at here
  · intro here other
    by_cases same : other = isA
    · rw [same]
      dsimp only
      rwa [Function.update_self]
    · dsimp only
      rw [Function.update_of_ne same]
      exact sealed other

theorem Reads.sealed {isA : Bool} {room : Nat} (reads : traffic.Reads isA room later)
    (sealed : traffic.Sealed) : later.Sealed := by
  rcases reads with ⟨rfl, _⟩ | ⟨rfl, _⟩ | ⟨rfl, _⟩
  · exact sealed
  · exact (sealed_of_update sealed _).mpr ((Record.sealed_congr rfl rfl).mpr (sealed _))
  · exact (sealed_of_update sealed _).mpr ((Record.sealed_congr rfl rfl).mpr (sealed _))

theorem sealed_fill_iff (sound : traffic.Sound capacity) (sealed : traffic.Sealed) {isA : Bool}
    (space : (traffic.state.myWriteBuf isA).length < capacity) (bytes : List Byte) :
    (traffic.fill capacity isA bytes).Sealed ↔
      (bytes ≠ [] → traffic.state.myWriteClosed isA = false) := by
  unfold fill
  rw [sealed_of_update sealed]
  have closed := (sound isA).closed
  cases closing : (traffic.record isA).closing with
  | none =>
      rw [closing] at closed
      refine iff_of_true ?_ (fun _ => closed)
      intro before impossible
      exact absurd (closing.symm.trans impossible) nofun
  | some before =>
      rw [closing] at closed
      have accepted := sealed isA before closing
      constructor
      · intro holds some
        have same := holds before closing
        have none : bytes.take (min (capacity - (traffic.state.myWriteBuf isA).length)
            bytes.length) = [] := by
          rw [Record.accept, accepted] at same
          exact List.append_right_eq_self.mp same
        rcases List.take_eq_nil_iff.mp none with zero | empty
        · have length : 0 < bytes.length := List.length_pos_iff.mpr some
          omega
        · exact absurd empty some
      · intro open' other closing'
        by_cases empty : bytes = []
        · rw [Record.accept, empty, List.take_nil, List.append_nil]
          exact sealed isA other closing'
        · rw [open' empty] at closed
          exact absurd closed nofun

theorem sealed_afterShutdown (sealed : traffic.Sealed) (isA : Bool) (how : Transport.Shutdown) :
    (traffic.afterShutdown isA how (traffic.state.shutdown isA how)).Sealed := by
  unfold afterShutdown
  split
  · rw [sealed_of_update sealed]
    intro before closing
    cases earlier : (traffic.record isA).closing with
    | none =>
        rw [Record.close, earlier] at closing
        exact Option.some.inj closing
    | some first =>
        rw [Record.close, earlier] at closing
        rw [← Option.some.inj closing]
        exact sealed isA first earlier
  · exact sealed

end Traffic

/-- A step lets bytes in behind a shutdown only where a write that has waited
does. -/
theorem sealed_step_iff (sound : config.shared.Sound capacity) (sealed : config.shared.Sealed)
    (action : Action Call) :
    (step (enter capacity) (again capacity) config action).shared.Sealed ↔
      Unshut capacity config action := by
  cases action with
  | enter call =>
      refine iff_of_true ?_ trivial
      cases call with
      | read isA room =>
          rcases enter_read capacity isA room config.shared with
            ⟨waits, _⟩ | ⟨later, returns, reads⟩
          · rwa [step_enter_waits waits]
          · rw [step_enter_returns returns]
            exact reads.sealed sealed
      | write isA bytes =>
          rcases enter_write capacity isA bytes config.shared with
            fails | ⟨fills, opened, space⟩ | ⟨waits, _⟩
          · rwa [step_enter_returns fails]
          · rw [step_enter_returns fills]
            exact (Traffic.sealed_fill_iff sound sealed space bytes).mpr (fun _ => opened)
          · rwa [step_enter_waits waits]
      | shutdown isA how => exact Traffic.sealed_afterShutdown sealed isA how
  | wake index => exact iff_of_true sealed trivial
  | resume index =>
      by_cases somebody : ∃ call, config.waiting[index]? = some ⟨call, true⟩
      · rcases somebody with ⟨call, located⟩
        rw [step_resume located]
        cases call with
        | read isA room =>
            refine iff_of_true ?_ (unshut_resume_read located)
            rcases again_read capacity isA room config.shared with ⟨later, returns, reads⟩
            rw [returns]
            exact reads.sealed sealed
        | write isA bytes =>
            rw [unshut_resume_write located]
            rcases again_write capacity isA bytes config.shared with ⟨fills, space⟩ | ⟨fails, full⟩
            · rw [fills, Traffic.sealed_fill_iff sound sealed space]
              constructor
              · intro opened some closed
                rw [opened some] at closed
                exact absurd closed nofun
              · intro condition some
                cases closed : config.shared.state.myWriteClosed isA with
                | false => rfl
                | true => exact absurd space (Nat.not_lt.mpr (condition some closed))
            · rw [fails]
              exact iff_of_true sealed (fun _ _ => full)
      · have nobody := fun call located => somebody ⟨call, located⟩
        rw [step_resume_of_ne nobody]
        exact iff_of_true sealed (resume_of_ne nobody).2

/-- A step that leaves the buffers alone leaves everybody as ready as before. -/
theorem noneStuck_of_state (same : later.state = traffic.state) (waiting : List (Waiter Pending)) :
    NoneStuck (Ready capacity) ⟨later, waiting⟩ ↔ NoneStuck (Ready capacity) ⟨traffic, waiting⟩ := by
  have ready : ∀ pending, Ready capacity pending later ↔ Ready capacity pending traffic := by
    intro pending
    cases pending <;> rw [Ready, Ready, same]
  exact forall_congr' fun waiter => forall_congr' fun _ => forall_congr' fun _ =>
    not_congr (ready waiter.call)

theorem length_take_lt (sound : traffic.Sound capacity) {isA : Bool} {room : Nat}
    (some : traffic.state.myWriteBuf isA ≠ []) (positive : room ≠ 0) :
    ((traffic.take isA room).state.myWriteBuf isA).length < capacity := by
  have bounded := (sound isA).bounded
  have length := List.length_pos_iff.mpr some
  dsimp only [Traffic.take]
  rw [DuplexState.myWriteBuf_setMyWriteBuf_self, List.length_drop]
  omega

section

variable (sound : config.shared.Sound capacity) (stuck : NoneStuck (Ready capacity) config)

include sound stuck

/-- A read that notifies nobody leaves nobody stuck exactly when no un-notified
write waited for the room that it made. -/
theorem noneStuck_reads_iff {isA : Bool} {room : Nat} (reads : config.shared.Reads isA room later)
    {waiting : List (Waiter Pending)} (sublist : ∀ waiter ∈ waiting, waiter ∈ config.waiting)
    (asleep : ∀ waiter ∈ config.waiting, waiter.notified = false → waiter ∈ waiting) :
    NoneStuck (Ready capacity) ⟨later, waiting⟩ ↔
      (room ≠ 0 → config.shared.state.myReadBuf isA ≠ [] → NoWriteWaits config (!isA)) := by
  rw [DuplexState.myReadBuf_eq]
  rcases reads with ⟨rfl, nothing⟩ | ⟨rfl, empty, _⟩ | ⟨rfl, positive, some⟩
  · exact iff_of_true (fun waiter member => stuck waiter (sublist waiter member))
      (fun positive some => absurd nothing (not_or.mpr ⟨positive, some⟩))
  · refine iff_of_true ?_ (fun _ some => absurd empty some)
    have same : (config.shared.finish (!isA)).state = config.shared.state := rfl
    exact (noneStuck_of_state same waiting).mpr fun waiter member =>
      stuck waiter (sublist waiter member)
  · constructor
    · intro holds _ _ waiter member asleep' bytes writes
      have unready := holds waiter (asleep waiter member asleep') asleep'
      rw [writes] at unready
      exact unready (length_take_lt sound some positive)
    · intro condition waiter member asleep'
      have before := stuck waiter (sublist waiter member) asleep'
      have awaited := condition positive some waiter (sublist waiter member) asleep'
      rcases waiter with ⟨call, notified⟩
      cases call with
      | read other size =>
          -- The bytes that are gone were there for this read too, unless it is at the other end.
          by_cases here : (!other) = !isA
          · refine absurd ?_ before
            dsimp only [Ready]
            rwa [DuplexState.myReadBuf_eq, here]
          · dsimp only [Ready] at before ⊢
            rw [DuplexState.myReadBuf_eq] at before ⊢
            dsimp only [Traffic.take]
            rwa [DuplexState.myWriteBuf_setMyWriteBuf_of_ne here]
      | write other bytes =>
          by_cases here : other = !isA
          · exact absurd (by rw [here]) (awaited bytes)
          · dsimp only [Ready, Traffic.take] at before ⊢
            rwa [DuplexState.myWriteBuf_setMyWriteBuf_of_ne here]

/-- A step leaves somebody stuck only where a read makes room for a write that
waits un-notified. -/
theorem noneStuck_step_iff (action : Action Call) :
    NoneStuck (Ready capacity) (step (enter capacity) (again capacity) config action) ↔
      Unawaited config action := by
  cases action with
  | enter call =>
      cases call with
      | read isA room =>
          rcases enter_read capacity isA room config.shared with
            ⟨waits, empty⟩ | ⟨later, returns, reads⟩
          · rw [step_enter_waits waits]
            have nothing : config.shared.state.myReadBuf isA = [] := by
              rw [DuplexState.myReadBuf_eq, empty]
            exact iff_of_true (stuck.waits (not_not.mpr nothing)) (fun _ some => absurd nothing some)
          · rw [step_enter_returns returns]
            exact noneStuck_reads_iff sound stuck reads (fun _ member => member)
              (fun _ member _ => member)
      | write isA bytes =>
          refine iff_of_true ?_ trivial
          rcases enter_write capacity isA bytes config.shared with fails | ⟨fills, _⟩ | ⟨waits, full⟩
          · rw [step_enter_returns fails]
            exact stuck
          · rw [step_enter_returns fills]
            exact noneStuck_notified _ _
          · rw [step_enter_waits waits]
            exact stuck.waits (Nat.not_lt.mpr full)
      | shutdown isA how => exact iff_of_true (noneStuck_notified _ _) trivial
  | wake index => exact iff_of_true (stuck.wake index) trivial
  | resume index =>
      by_cases somebody : ∃ call, config.waiting[index]? = some ⟨call, true⟩
      · rcases somebody with ⟨call, located⟩
        rw [step_resume located]
        cases call with
        | read isA room =>
            rw [unawaited_resume_read located]
            rcases again_read capacity isA room config.shared with ⟨later, returns, reads⟩
            rw [returns]
            exact noneStuck_reads_iff sound stuck reads
              (fun _ member => List.mem_of_mem_eraseIdx member)
              (fun _ member asleep => mem_eraseIdx_of_asleep located member asleep)
        | write isA bytes =>
            refine iff_of_true ?_ (unawaited_resume_write located)
            rcases again_write capacity isA bytes config.shared with ⟨fills, _⟩ | ⟨fails, _⟩
            · rw [fills]
              exact noneStuck_notified _ _
            · rw [fails]
              exact stuck.eraseIdx index
      · have nobody := fun call located => somebody ⟨call, located⟩
        rw [step_resume_of_ne nobody]
        exact iff_of_true stuck (@resume_of_ne capacity config index nobody).1

end

/-- What a run keeps as long as it is proper. -/
structure Orderly (capacity : Nat) (config : Monitor.Config Traffic Pending) : Prop where
  sound : config.shared.Sound capacity
  sealed : config.shared.Sealed
  noneStuck : NoneStuck (Ready capacity) config

theorem orderly_memDuplex (capacity : Nat) : Orderly capacity memDuplex :=
  ⟨Traffic.sound_initial capacity, fun _ => nofun, nofun⟩

theorem proper_iff (sound : config.shared.Sound capacity) :
    Proper capacity config ↔ config.shared.Sealed ∧ NoneStuck (Ready capacity) config := by
  constructor
  · exact fun proper => ⟨proper.sealed, proper.noneStuck⟩
  · rintro ⟨sealed, stuck⟩
    exact ⟨fun isA => (sound isA).queued, fun isA => (sound isA).bounded, sealed,
      fun isA => (sound isA).ends, stuck⟩

theorem proper_step_iff (orderly : Orderly capacity config) (action : Action Call) :
    Proper capacity (step (enter capacity) (again capacity) config action) ↔
      Unawaited config action ∧ Unshut capacity config action := by
  rw [proper_iff (sound_step action orderly.sound), sealed_step_iff orderly.sound orderly.sealed,
    noneStuck_step_iff orderly.sound orderly.noneStuck]
  exact and_comm

/-- In every run, every state is proper exactly when no read ever makes room for
a write that waits un-notified, and no write that has waited finds room behind
its own shutdown. -/
theorem always_proper_iff (capacity : Nat) (actions : List (Action Call)) :
    RunAlways (step (enter (memDuplexCapacity capacity)) (again (memDuplexCapacity capacity)))
        (Proper (memDuplexCapacity capacity)) memDuplex actions ↔
      RunMeets (step (enter (memDuplexCapacity capacity)) (again (memDuplexCapacity capacity)))
        (fun config action =>
          Unawaited config action ∧ Unshut (memDuplexCapacity capacity) config action)
        memDuplex actions := by
  apply runAlways_iff_runMeets (Orderly (memDuplexCapacity capacity))
  · exact fun config orderly => (proper_iff orderly.sound).mpr ⟨orderly.sealed, orderly.noneStuck⟩
  · exact fun config action orderly => proper_step_iff orderly action
  · intro config action orderly meets
    have proper := (proper_step_iff orderly action).mpr meets
    exact ⟨sound_step action orderly.sound, proper.sealed, proper.noneStuck⟩
  · exact orderly_memDuplex _

/-- A pipe for one byte: the second write waits for room, and the read that
makes it notifies nobody. -/
theorem write_left_waiting :
    ¬ RunAlways (step (enter (memDuplexCapacity 1)) (again (memDuplexCapacity 1)))
      (Proper (memDuplexCapacity 1)) memDuplex
      [.enter (.write true [1]), .enter (.write true [2]), .enter (.read false 1)] := by
  rintro ⟨_, _, _, proper⟩
  exact absurd proper.noneStuck (by decide)

end Corduit.Engine.Inbound.MemDuplex
