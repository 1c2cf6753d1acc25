import Corduit.Engine.Inbound.MemDuplex.Core
import Mathlib.Logic.Function.Basic

/-!
# What goes through a pipe

Each direction of a pipe is a bounded queue: what its writer had accepted is
what its reader has taken and, behind that, the buffer.  Beside the state a
record of each direction is kept: what was accepted and taken, what had been
accepted when the writer shut its half down for the first time, and what had
been taken whenever the reader was told that this is the end.

`Sound` is what every call preserves.  That nothing is accepted behind the
shutdown is not part of it: a write that waited does not look at the flag again.
-/

namespace Corduit.Engine.Inbound.MemDuplex

open Transition Transition.Monitor Transport Word

/-- What has happened in a direction. -/
structure Record where
  accepted : List Byte
  taken : List Byte
  closing : Option (List Byte)
  ends : List (List Byte)
deriving DecidableEq

namespace Record

/-- Nothing has happened. -/
def empty : Record :=
  ⟨[], [], none, []⟩

variable (record : Record)

/-- The writer's bytes are accepted. -/
def accept (bytes : List Byte) : Record :=
  { record with accepted := record.accepted ++ bytes }

/-- The reader takes bytes. -/
def take (bytes : List Byte) : Record :=
  { record with taken := record.taken ++ bytes }

/-- The reader is told that this is the end. -/
def finish : Record :=
  { record with ends := record.ends ++ [record.taken] }

/-- The writer shuts its half down. -/
def close : Record :=
  { record with closing := record.closing <|> some record.accepted }

/-- Nothing was accepted behind the shutdown. -/
def Sealed : Prop :=
  ∀ before, record.closing = some before → record.accepted = before

end Record

/-- A direction is a queue of bounded length, and its reader is told of the end
only when it has everything from before the shutdown. -/
structure Sound (capacity : Nat) (buffer : List Byte) (closed : Bool) (record : Record) :
    Prop where
  queued : record.taken ++ buffer = record.accepted
  bounded : buffer.length ≤ capacity
  closed : closed = record.closing.isSome
  before : ∀ before, record.closing = some before → before <+: record.accepted
  ends : ∀ taken ∈ record.ends, ∃ before, record.closing = some before ∧ before <+: taken

namespace Sound

variable {capacity : Nat} {buffer : List Byte} {closed : Bool} {record : Record}

theorem empty (capacity : Nat) : Sound capacity [] false Record.empty :=
  ⟨rfl, Nat.zero_le capacity, rfl, nofun, nofun⟩

theorem take (sound : Sound capacity buffer closed record) (count : Nat) :
    Sound capacity (buffer.drop count) closed (record.take (buffer.take count)) where
  queued := by
    rw [Record.take, List.append_assoc, List.take_append_drop]
    exact sound.queued
  bounded := by
    rw [List.length_drop]
    exact Nat.le_trans (Nat.sub_le _ _) sound.bounded
  closed := sound.closed
  before := sound.before
  ends := sound.ends

theorem finish (sound : Sound capacity [] true record) : Sound capacity [] true record.finish where
  queued := sound.queued
  bounded := sound.bounded
  closed := sound.closed
  before := sound.before
  ends := by
    intro taken member
    rcases List.mem_append.mp member with earlier | now
    · exact sound.ends taken earlier
    · rw [List.mem_singleton.mp now]
      have everything : record.taken = record.accepted := by
        rw [← sound.queued, List.append_nil]
      rcases Option.isSome_iff_exists.mp sound.closed.symm with ⟨before, closing⟩
      exact ⟨before, closing, everything ▸ sound.before before closing⟩

theorem accept (sound : Sound capacity buffer closed record) {bytes : List Byte}
    (room : (buffer ++ bytes).length ≤ capacity) :
    Sound capacity (buffer ++ bytes) closed (record.accept bytes) where
  queued := by
    rw [← List.append_assoc]
    exact congrArg (· ++ bytes) sound.queued
  bounded := room
  closed := sound.closed
  before := fun before closing => (sound.before before closing).trans (List.prefix_append _ _)
  ends := sound.ends

theorem close (sound : Sound capacity buffer closed record) :
    Sound capacity buffer true record.close := by
  cases closing : record.closing with
  | none =>
      refine ⟨sound.queued, sound.bounded, by simp [Record.close, closing], ?_, ?_⟩
      · intro before now
        obtain rfl : record.accepted = before := by simpa [Record.close, closing] using now
        exact List.prefix_refl _
      · intro taken member
        rcases sound.ends taken member with ⟨before, impossible, _⟩
        rw [closing] at impossible
        exact absurd impossible nofun
  | some before =>
      have same : record.close = record := by
        rw [Record.close, closing]
        exact congrArg (fun now => { record with closing := now }) closing.symm
      rw [same]
      exact ⟨sound.queued, sound.bounded, by rw [closing]; rfl, sound.before, sound.ends⟩

end Sound

/-- The state of the pipe and the record of what each end has written. -/
structure Traffic where
  state : DuplexState
  record : Bool → Record

/-- A call at one of the ends. -/
inductive Call where
  | read (isA : Bool) (room : Nat)
  | write (isA : Bool) (bytes : List Byte)
  | shutdown (isA : Bool) (how : Shutdown)
deriving DecidableEq

/-- A call that waits. -/
inductive Pending where
  | read (isA : Bool) (room : Nat)
  | write (isA : Bool) (bytes : List Byte)
deriving DecidableEq

namespace Traffic

/-- A pipe through which nothing has gone. -/
def initial : Traffic :=
  ⟨DuplexState.default, fun _ => Record.empty⟩

variable (traffic : Traffic) (isA : Bool)

/-- Record what a read at an end returns; one that had room and gave nothing
told of the end. -/
def afterRead (room : Nat) : Except IoError (List Byte) × DuplexState → Traffic
  | (.ok bytes, state) =>
      let record := traffic.record (!isA)
      ⟨state, Function.update traffic.record (!isA)
        (if room ≠ 0 ∧ bytes = [] then record.finish else record.take bytes)⟩
  | (.error _, state) => ⟨state, traffic.record⟩

/-- Record what a write at an end returns. -/
def afterWrite (bytes : List Byte) : Except IoError Nat × DuplexState → Traffic
  | (.ok count, state) =>
      ⟨state, Function.update traffic.record isA ((traffic.record isA).accept (bytes.take count))⟩
  | (.error _, state) => ⟨state, traffic.record⟩

/-- Record a shutdown at an end. -/
def afterShutdown (how : Shutdown) (state : DuplexState) : Traffic :=
  ⟨state, if how.writes then Function.update traffic.record isA (traffic.record isA).close
    else traffic.record⟩

end Traffic

/-- A call takes the lock.  Of the calls that return, a write that has accepted
notifies, and a shutdown. -/
def enter (capacity : Nat) : Call → Traffic → Held Traffic Pending
  | .read isA room, traffic =>
      match traffic.state.read isA room with
      | some outcome => .returns (traffic.afterRead isA room outcome) false
      | none => .waits (.read isA room)
  | .write isA bytes, traffic =>
      match traffic.state.write isA capacity bytes with
      | some outcome => .returns (traffic.afterWrite isA bytes outcome) outcome.1.isOk
      | none => .waits (.write isA bytes)
  | .shutdown isA how, traffic =>
      .returns (traffic.afterShutdown isA how (traffic.state.shutdown isA how)) true

/-- A call takes the lock for the second time. -/
def again (capacity : Nat) : Pending → Traffic → Traffic × Bool
  | .read isA room, traffic =>
      (traffic.afterRead isA room (traffic.state.readAgain isA room), false)
  | .write isA bytes, traffic =>
      (traffic.afterWrite isA bytes (traffic.state.writeAgain isA capacity bytes),
        (traffic.state.writeAgain isA capacity bytes).1.isOk)

namespace Traffic

variable {traffic : Traffic} {isA : Bool}

/-- The direction in which an end writes is sound. -/
def Sound (capacity : Nat) (traffic : Traffic) : Prop :=
  ∀ isA, MemDuplex.Sound capacity (traffic.state.myWriteBuf isA) (traffic.state.myWriteClosed isA)
    (traffic.record isA)

/-- Neither end has had anything accepted behind its shutdown. -/
def Sealed (traffic : Traffic) : Prop :=
  ∀ isA, (traffic.record isA).Sealed

theorem sound_initial (capacity : Nat) : Sound capacity initial := by
  intro isA
  cases isA <;> exact Sound.empty capacity

/-- The reader takes bytes off a direction. -/
def take (traffic : Traffic) (isA : Bool) (room : Nat) : Traffic :=
  ⟨traffic.state.setMyWriteBuf isA ((traffic.state.myWriteBuf isA).drop room),
    Function.update traffic.record isA
      ((traffic.record isA).take ((traffic.state.myWriteBuf isA).take room))⟩

/-- The reader of a direction is told that this is the end. -/
def finish (traffic : Traffic) (isA : Bool) : Traffic :=
  ⟨traffic.state, Function.update traffic.record isA (traffic.record isA).finish⟩

/-- The writer of a direction adds what there is room for. -/
def fill (capacity : Nat) (traffic : Traffic) (isA : Bool) (bytes : List Byte) : Traffic :=
  let accepted := bytes.take (min (capacity - (traffic.state.myWriteBuf isA).length) bytes.length)
  ⟨traffic.state.setMyWriteBuf isA (traffic.state.myWriteBuf isA ++ accepted),
    Function.update traffic.record isA ((traffic.record isA).accept accepted)⟩

/-- What a read that returns does to the direction towards its end. -/
def Reads (traffic : Traffic) (isA : Bool) (room : Nat) (later : Traffic) : Prop :=
  (later = traffic ∧ (room = 0 ∨ traffic.state.myWriteBuf (!isA) = [])) ∨
  (later = traffic.finish (!isA) ∧ traffic.state.myWriteBuf (!isA) = [] ∧
    traffic.state.myWriteClosed (!isA) = true) ∨
  (later = traffic.take (!isA) room ∧ room ≠ 0 ∧ traffic.state.myWriteBuf (!isA) ≠ [])

theorem afterRead_nothing (traffic : Traffic) (isA : Bool) :
    traffic.afterRead isA 0 (.ok [], traffic.state) = traffic := by
  have same : (traffic.record (!isA)).take [] = traffic.record (!isA) := by
    rw [Record.take, List.append_nil]
  dsimp only [afterRead]
  rw [if_neg (fun impossible => impossible.1 rfl), same, Function.update_eq_self]

theorem reads_of_readNow {outcome : Except IoError (List Byte) × DuplexState} {room : Nat}
    (looked : traffic.state.readNow isA room = some outcome) :
    traffic.Reads isA room (traffic.afterRead isA room outcome) := by
  rcases traffic.state.readNow_cases isA room with
    ⟨some, look⟩ | ⟨empty, closed, look⟩ | ⟨empty, look⟩ | ⟨empty, look⟩ <;>
    rw [look] at looked
  · rw [← Option.some.inj looked]
    by_cases nothing : room = 0
    · subst nothing
      have same := afterRead_nothing traffic isA
      rw [List.take_zero, List.drop_zero, DuplexState.setMyWriteBuf_self, same]
      exact Or.inl ⟨rfl, Or.inl rfl⟩
    · refine Or.inr (Or.inr ⟨?_, nothing, some⟩)
      have given : (traffic.state.myWriteBuf (!isA)).take room ≠ [] := by
        rw [Ne, List.take_eq_nil_iff]
        exact fun none => none.elim nothing some
      dsimp only [afterRead]
      rw [if_neg (fun impossible => given impossible.2), take]
  · rw [← Option.some.inj looked]
    by_cases nothing : room = 0
    · subst nothing
      rw [afterRead_nothing]
      exact Or.inl ⟨rfl, Or.inl rfl⟩
    · refine Or.inr (Or.inl ⟨?_, empty, closed⟩)
      dsimp only [afterRead]
      rw [if_pos ⟨nothing, rfl⟩, finish]
  · rw [← Option.some.inj looked]
    exact Or.inl ⟨rfl, Or.inr empty⟩
  · exact absurd looked nofun

end Traffic

open Traffic

variable {traffic : Traffic} {capacity : Nat}

section

variable (capacity : Nat) (isA : Bool)

theorem enter_read (room : Nat) (traffic : Traffic) :
    (enter capacity (.read isA room) traffic = .waits (.read isA room) ∧
      traffic.state.myWriteBuf (!isA) = []) ∨
    ∃ later, enter capacity (.read isA room) traffic = .returns later false ∧
      traffic.Reads isA room later := by
  by_cases nothing : room = 0
  · refine Or.inr ⟨traffic, ?_, Or.inl ⟨rfl, Or.inl nothing⟩⟩
    dsimp only [enter, DuplexState.read]
    rw [if_pos nothing, nothing]
    exact congrArg (Held.returns · false) (afterRead_nothing traffic isA)
  · dsimp only [enter, DuplexState.read]
    rw [if_neg nothing]
    cases looked : traffic.state.readNow isA room with
    | none =>
        refine Or.inl ⟨rfl, ?_⟩
        rcases traffic.state.readNow_cases isA room with
          ⟨_, look⟩ | ⟨_, _, look⟩ | ⟨_, look⟩ | ⟨empty, _⟩
        · exact absurd (looked.symm.trans look) nofun
        · exact absurd (looked.symm.trans look) nofun
        · exact absurd (looked.symm.trans look) nofun
        · exact empty
    | some outcome => exact Or.inr ⟨_, rfl, reads_of_readNow looked⟩

theorem again_read (room : Nat) (traffic : Traffic) :
    ∃ later, again capacity (.read isA room) traffic = (later, false) ∧
      traffic.Reads isA room later := by
  refine ⟨_, rfl, ?_⟩
  unfold DuplexState.readAgain
  cases looked : traffic.state.readNow isA room with
  | none =>
      refine Or.inl ⟨rfl, Or.inr ?_⟩
      rcases traffic.state.readNow_cases isA room with
        ⟨_, look⟩ | ⟨_, _, look⟩ | ⟨_, look⟩ | ⟨empty, _⟩
      · exact absurd (looked.symm.trans look) nofun
      · exact absurd (looked.symm.trans look) nofun
      · exact absurd (looked.symm.trans look) nofun
      · exact empty
  | some outcome => exact reads_of_readNow looked

theorem enter_write (bytes : List Byte) (traffic : Traffic) :
    enter capacity (.write isA bytes) traffic = .returns traffic false ∨
    (enter capacity (.write isA bytes) traffic = .returns (traffic.fill capacity isA bytes) true ∧
      traffic.state.myWriteClosed isA = false ∧
      (traffic.state.myWriteBuf isA).length < capacity) ∨
    (enter capacity (.write isA bytes) traffic = .waits (.write isA bytes) ∧
      capacity ≤ (traffic.state.myWriteBuf isA).length) := by
  dsimp only [enter, DuplexState.write]
  by_cases closed : (traffic.state.myWriteClosed isA || traffic.state.myBoth isA ||
      traffic.state.peerBoth isA) = true
  · rw [if_pos closed]
    exact Or.inl rfl
  · rw [if_neg closed]
    have opened : traffic.state.myWriteClosed isA = false := by
      cases flag : traffic.state.myWriteClosed isA with
      | false => rfl
      | true => exact absurd (by rw [flag]; rfl) closed
    rcases Nat.lt_or_ge (traffic.state.myWriteBuf isA).length capacity with space | full
    · rw [DuplexState.writeNow_of_lt space]
      exact Or.inr (Or.inl ⟨rfl, opened, space⟩)
    · rw [DuplexState.writeNow_of_le full]
      exact Or.inr (Or.inr ⟨rfl, full⟩)

theorem again_write (bytes : List Byte) (traffic : Traffic) :
    (again capacity (.write isA bytes) traffic = (traffic.fill capacity isA bytes, true) ∧
      (traffic.state.myWriteBuf isA).length < capacity) ∨
    (again capacity (.write isA bytes) traffic = (traffic, false) ∧
      capacity ≤ (traffic.state.myWriteBuf isA).length) := by
  dsimp only [again, DuplexState.writeAgain]
  rcases Nat.lt_or_ge (traffic.state.myWriteBuf isA).length capacity with space | full
  · rw [DuplexState.writeNow_of_lt space]
    exact Or.inl ⟨rfl, space⟩
  · rw [DuplexState.writeNow_of_le full]
    exact Or.inr ⟨rfl, full⟩

end

namespace Traffic

section

variable (sound : traffic.Sound capacity)

include sound

theorem sound_update (isA : Bool) {later : Traffic}
    (buffers : ∀ other, other ≠ isA →
      later.state.myWriteBuf other = traffic.state.myWriteBuf other)
    (flags : ∀ other, other ≠ isA →
      later.state.myWriteClosed other = traffic.state.myWriteClosed other)
    (records : ∀ other, other ≠ isA → later.record other = traffic.record other)
    (here : MemDuplex.Sound capacity (later.state.myWriteBuf isA) (later.state.myWriteClosed isA)
      (later.record isA)) :
    later.Sound capacity := by
  intro other
  by_cases same : other = isA
  · rw [same]
    exact here
  · rw [buffers other same, flags other same, records other same]
    exact sound other

theorem Sound.take (isA : Bool) (room : Nat) :
    (traffic.take isA room).Sound capacity := by
  apply sound_update sound isA
  · exact fun other different => DuplexState.myWriteBuf_setMyWriteBuf_of_ne different
  · exact fun other _ => DuplexState.myWriteClosed_setMyWriteBuf
  · exact fun other different => Function.update_of_ne different _ _
  · dsimp only [Traffic.take]
    rw [DuplexState.myWriteBuf_setMyWriteBuf_self, DuplexState.myWriteClosed_setMyWriteBuf,
      Function.update_self]
    exact MemDuplex.Sound.take (sound isA) room

theorem Sound.finish {isA : Bool} (empty : traffic.state.myWriteBuf isA = [])
    (closed : traffic.state.myWriteClosed isA = true) :
    (traffic.finish isA).Sound capacity := by
  apply sound_update sound isA
  · exact fun other _ => rfl
  · exact fun other _ => rfl
  · exact fun other different => Function.update_of_ne different _ _
  · have here := sound isA
    dsimp only [Traffic.finish]
    rw [Function.update_self]
    rw [empty, closed] at here ⊢
    exact MemDuplex.Sound.finish here

theorem Sound.fill (isA : Bool) (bytes : List Byte) :
    (traffic.fill capacity isA bytes).Sound capacity := by
  apply sound_update sound isA
  · exact fun other different => DuplexState.myWriteBuf_setMyWriteBuf_of_ne different
  · exact fun other _ => DuplexState.myWriteClosed_setMyWriteBuf
  · exact fun other different => Function.update_of_ne different _ _
  · dsimp only [Traffic.fill]
    rw [DuplexState.myWriteBuf_setMyWriteBuf_self, DuplexState.myWriteClosed_setMyWriteBuf,
      Function.update_self]
    apply MemDuplex.Sound.accept (sound isA)
    have bounded := (sound isA).bounded
    rw [List.length_append, List.length_take]
    omega

theorem Sound.afterShutdown (isA : Bool) (how : Shutdown) :
    (traffic.afterShutdown isA how (traffic.state.shutdown isA how)).Sound capacity := by
  apply sound_update sound isA
  · exact fun other _ => DuplexState.myWriteBuf_shutdown how
  · exact fun other different => DuplexState.myWriteClosed_shutdown_of_ne different how
  · intro other different
    unfold Traffic.afterShutdown
    split
    · exact Function.update_of_ne different _ _
    · rfl
  · dsimp only [Traffic.afterShutdown]
    rw [DuplexState.myWriteBuf_shutdown, DuplexState.myWriteClosed_shutdown_self]
    cases writes : how.writes with
    | false => exact sound isA
    | true =>
        rw [if_pos rfl, Function.update_self]
        exact MemDuplex.Sound.close (sound isA)

end

theorem Sound.reads (sound : traffic.Sound capacity) {isA : Bool} {room : Nat} {later : Traffic}
    (reads : traffic.Reads isA room later) : later.Sound capacity := by
  rcases reads with ⟨rfl, _⟩ | ⟨rfl, empty, closed⟩ | ⟨rfl, _, _⟩
  · exact sound
  · exact sound.finish empty closed
  · exact sound.take (!isA) room

end Traffic

theorem sound_enter (call : Call) (traffic later : Traffic) (notifies : Bool)
    (held : enter capacity call traffic = .returns later notifies)
    (sound : traffic.Sound capacity) : later.Sound capacity := by
  cases call with
  | read isA room =>
      rcases enter_read capacity isA room traffic with ⟨waits, _⟩ | ⟨after, returns, reads⟩
      · exact absurd (held.symm.trans waits) nofun
      · cases held.symm.trans returns
        exact sound.reads reads
  | write isA bytes =>
      rcases enter_write capacity isA bytes traffic with fails | ⟨fills, _, _⟩ | ⟨waits, _⟩
      · cases held.symm.trans fails
        exact sound
      · cases held.symm.trans fills
        exact sound.fill isA bytes
      · exact absurd (held.symm.trans waits) nofun
  | shutdown isA how =>
      cases held
      exact sound.afterShutdown isA how

theorem sound_again (pending : Pending) (traffic : Traffic) (sound : traffic.Sound capacity) :
    (again capacity pending traffic).1.Sound capacity := by
  cases pending with
  | read isA room =>
      rcases again_read capacity isA room traffic with ⟨later, returns, reads⟩
      rw [returns]
      exact sound.reads reads
  | write isA bytes =>
      rcases again_write capacity isA bytes traffic with ⟨fills, _⟩ | ⟨fails, _⟩
      · rw [fills]
        exact sound.fill isA bytes
      · rw [fails]
        exact sound

theorem sound_step {config : Monitor.Config Traffic Pending} (action : Action Call)
    (sound : config.shared.Sound capacity) :
    (step (enter capacity) (again capacity) config action).shared.Sound capacity :=
  shared_step (Traffic.Sound capacity) sound_enter sound_again action sound

end Corduit.Engine.Inbound.MemDuplex
