import Corduit.Transition.Monitor
import Corduit.Transport.Poll

/-!
# The in-memory duplex pipe

Two ends share a state under one lock: what each end has written and the other
has not read, and which ends have been shut down.  A read that finds nothing
and a write that finds no room wait once on the one condition variable, and
then look a second time.
-/

namespace Corduit.Engine.Inbound.MemDuplex

open Transition.Monitor Transport Word

/-- The state that both ends share. -/
structure DuplexState where
  aToB : List Byte
  bToA : List Byte
  aWriteClosed : Bool
  bWriteClosed : Bool
  aBoth : Bool
  bBoth : Bool
deriving DecidableEq

namespace DuplexState

/-- A new pipe. -/
def default : DuplexState :=
  ⟨[], [], false, false, false, false⟩

variable (state : DuplexState) (isA : Bool)

/-- What the end reads from. -/
def myReadBuf : List Byte :=
  if isA then state.bToA else state.aToB

/-- What the end writes to. -/
def myWriteBuf : List Byte :=
  if isA then state.aToB else state.bToA

/-- Whether the peer has shut down writing. -/
def peerWriteClosed : Bool :=
  if isA then state.bWriteClosed else state.aWriteClosed

/-- Whether the end has shut down writing. -/
def myWriteClosed : Bool :=
  if isA then state.aWriteClosed else state.bWriteClosed

/-- Whether the end has closed both halves. -/
def myBoth : Bool :=
  if isA then state.aBoth else state.bBoth

/-- Whether the peer has closed both halves. -/
def peerBoth : Bool :=
  if isA then state.bBoth else state.aBoth

/-- Write through the reference that `my_read_buf` gives. -/
def setMyReadBuf (bytes : List Byte) : DuplexState :=
  if isA then { state with bToA := bytes } else { state with aToB := bytes }

/-- Write through the reference that `my_write_buf` gives. -/
def setMyWriteBuf (bytes : List Byte) : DuplexState :=
  if isA then { state with aToB := bytes } else { state with bToA := bytes }

/-- `SyncStream::shutdown`. -/
def shutdown (how : Shutdown) : DuplexState :=
  if isA then
    { state with
      aWriteClosed := how.writes || state.aWriteClosed
      aBoth := how == .both || state.aBoth }
  else
    { state with
      bWriteClosed := how.writes || state.bWriteClosed
      bBoth := how == .both || state.bBoth }

/-- What both looks of a read do: take what there is, report the end, or fail. -/
def readNow (room : Nat) : Option (Except IoError (List Byte) × DuplexState) :=
  if state.myReadBuf isA ≠ [] then
    some (.ok ((state.myReadBuf isA).take room),
      state.setMyReadBuf isA ((state.myReadBuf isA).drop room))
  else if state.peerWriteClosed isA then some (.ok [], state)
  else if state.myBoth isA || state.peerBoth isA then
    some (.error ⟨.brokenPipe, "duplex closed"⟩, state)
  else none

/-- `Read::read` up to its wait; `none` is the wait. -/
def read (room : Nat) : Option (Except IoError (List Byte) × DuplexState) :=
  if room = 0 then some (.ok [], state) else state.readNow isA room

/-- `Read::read` behind its wait. -/
def readAgain (room : Nat) : Except IoError (List Byte) × DuplexState :=
  (state.readNow isA room).getD (.error ⟨.wouldBlock, "duplex idle"⟩, state)

/-- What both looks of a write do: accept what there is room for. -/
def writeNow (capacity : Nat) (bytes : List Byte) : Option (Except IoError Nat × DuplexState) :=
  let space := capacity - (state.myWriteBuf isA).length
  if 0 < space then
    let count := min space bytes.length
    some (.ok count, state.setMyWriteBuf isA (state.myWriteBuf isA ++ bytes.take count))
  else none

/-- `Write::write` up to its wait; `none` is the wait. -/
def write (capacity : Nat) (bytes : List Byte) : Option (Except IoError Nat × DuplexState) :=
  if state.myWriteClosed isA || state.myBoth isA || state.peerBoth isA then
    some (.error ⟨.brokenPipe, "duplex write closed"⟩, state)
  else state.writeNow isA capacity bytes

/-- `Write::write` behind its wait. -/
def writeAgain (capacity : Nat) (bytes : List Byte) : Except IoError Nat × DuplexState :=
  (state.writeNow isA capacity bytes).getD (.error ⟨.timedOut, "duplex write timed out"⟩, state)

variable {state isA} {other : Bool} {bytes : List Byte}

theorem myReadBuf_eq : state.myReadBuf isA = state.myWriteBuf (!isA) := by
  cases isA <;> rfl

theorem setMyReadBuf_eq : state.setMyReadBuf isA bytes = state.setMyWriteBuf (!isA) bytes := by
  cases isA <;> rfl

theorem peerWriteClosed_eq : state.peerWriteClosed isA = state.myWriteClosed (!isA) := by
  cases isA <;> rfl

@[simp]
theorem myWriteBuf_setMyWriteBuf_self : (state.setMyWriteBuf isA bytes).myWriteBuf isA = bytes := by
  cases isA <;> rfl

theorem myWriteBuf_setMyWriteBuf_of_ne (different : other ≠ isA) :
    (state.setMyWriteBuf isA bytes).myWriteBuf other = state.myWriteBuf other := by
  cases isA <;> cases other <;> first | rfl | exact absurd rfl different

@[simp]
theorem setMyWriteBuf_self : state.setMyWriteBuf isA (state.myWriteBuf isA) = state := by
  cases isA <;> rfl

@[simp]
theorem myWriteClosed_setMyWriteBuf :
    (state.setMyWriteBuf isA bytes).myWriteClosed other = state.myWriteClosed other := by
  cases isA <;> cases other <;> rfl

@[simp]
theorem myWriteBuf_shutdown (how : Shutdown) :
    (state.shutdown isA how).myWriteBuf other = state.myWriteBuf other := by
  cases isA <;> cases other <;> rfl

@[simp]
theorem myWriteClosed_shutdown_self (how : Shutdown) :
    (state.shutdown isA how).myWriteClosed isA = (how.writes || state.myWriteClosed isA) := by
  cases isA <;> rfl

theorem myWriteClosed_shutdown_of_ne (different : other ≠ isA) (how : Shutdown) :
    (state.shutdown isA how).myWriteClosed other = state.myWriteClosed other := by
  cases isA <;> cases other <;> first | rfl | exact absurd rfl different

theorem readNow_cases (state : DuplexState) (isA : Bool) (room : Nat) :
    (state.myWriteBuf (!isA) ≠ [] ∧ state.readNow isA room =
        some (.ok ((state.myWriteBuf (!isA)).take room),
          state.setMyWriteBuf (!isA) ((state.myWriteBuf (!isA)).drop room))) ∨
    (state.myWriteBuf (!isA) = [] ∧ state.myWriteClosed (!isA) = true ∧
      state.readNow isA room = some (.ok [], state)) ∨
    (state.myWriteBuf (!isA) = [] ∧
      state.readNow isA room = some (.error ⟨.brokenPipe, "duplex closed"⟩, state)) ∨
    (state.myWriteBuf (!isA) = [] ∧ state.readNow isA room = none) := by
  unfold readNow
  rw [myReadBuf_eq, setMyReadBuf_eq, peerWriteClosed_eq]
  by_cases empty : state.myWriteBuf (!isA) = []
  · rw [if_neg (not_not.mpr empty)]
    by_cases closed : state.myWriteClosed (!isA) = true
    · exact Or.inr (Or.inl ⟨empty, closed, if_pos closed⟩)
    · rw [if_neg closed]
      by_cases both : (state.myBoth isA || state.peerBoth isA) = true
      · exact Or.inr (Or.inr (Or.inl ⟨empty, if_pos both⟩))
      · exact Or.inr (Or.inr (Or.inr ⟨empty, if_neg both⟩))
  · exact Or.inl ⟨empty, if_pos empty⟩

theorem writeNow_of_lt {capacity : Nat} (space : (state.myWriteBuf isA).length < capacity)
    (bytes : List Byte) :
    state.writeNow isA capacity bytes =
      some (.ok (min (capacity - (state.myWriteBuf isA).length) bytes.length),
        state.setMyWriteBuf isA (state.myWriteBuf isA ++
          bytes.take (min (capacity - (state.myWriteBuf isA).length) bytes.length))) :=
  if_pos (Nat.sub_pos_of_lt space)

theorem writeNow_of_le {capacity : Nat} (full : capacity ≤ (state.myWriteBuf isA).length)
    (bytes : List Byte) : state.writeNow isA capacity bytes = none :=
  if_neg (by rw [Nat.sub_eq_zero_of_le full]; exact Nat.lt_irrefl 0)

end DuplexState

end Corduit.Engine.Inbound.MemDuplex
