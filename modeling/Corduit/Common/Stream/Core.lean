import Corduit.Transition.Core
import Corduit.Transport.Poll
import Mathlib.Logic.Function.Basic

/-!
# The relay

Two loops copy bytes between two transports, one in each direction.  A side is
shared by both loops, or it is behind a lock that a loop holds while it reads or
writes.  The loops share a flag, which is set on every ending except a clean
half-close, and a token, which anyone may cancel at any time.

A loop goes on in small steps: it tests, takes a lock, counts, or gets an answer
of a transport, and the other loop, the cancellation and its hook may come in
between.
-/

namespace Corduit.Common.Stream

open Transport Word

/-- `RELAY_BUF_SIZE`. -/
def relayBufSize : Nat :=
  32 * 1024

/-- The loops: from the client to the upstream transport, and back. -/
inductive Direction where
  | upstream
  | downstream
deriving DecidableEq

/-- The transport of the client and the one of the upstream. -/
inductive End where
  | a
  | b
deriving DecidableEq

namespace Direction

/-- The opposite direction. -/
def other : Direction → Direction
  | upstream => downstream
  | downstream => upstream

/-- What a direction reads. -/
def src : Direction → End
  | upstream => .a
  | downstream => .b

/-- What a direction writes. -/
def dst : Direction → End
  | upstream => .b
  | downstream => .a

end Direction

/-- The two variants of `Side`. -/
inductive SideKind where
  | shared
  | serialized
deriving DecidableEq

/-- `Side`: the direction that holds its lock, and the shutdowns of its
transport. -/
structure Side where
  kind : SideKind
  holder : Option Direction := none
  shutdowns : List Shutdown := []
deriving DecidableEq

namespace Side

/-- There is no lock, or it is free. -/
def Available (side : Side) : Prop :=
  side.kind = .shared ∨ side.holder = none

instance (side : Side) : Decidable side.Available :=
  inferInstanceAs (Decidable (_ ∨ _))

/-- `lock_stream`, once the lock is free. -/
def lock (side : Side) (direction : Direction) : Side :=
  match side.kind with
  | .shared => side
  | .serialized => { side with holder := some direction }

/-- The guard of the lock is dropped. -/
def unlock (side : Side) : Side :=
  { side with holder := none }

/-- `Side::shutdown`: what needs a lock that is not free is not done. -/
def shutdown (side : Side) (how : Shutdown) : Side :=
  if side.Available then { side with shutdowns := side.shutdowns ++ [how] } else side

/-- Both halves are shut down. -/
def release (side : Side) : Side :=
  side.shutdown .both

/-- The writing half of the transport was shut down. -/
def WriteShut (side : Side) : Prop :=
  ∃ how ∈ side.shutdowns, how.writes = true

instance (side : Side) : Decidable side.WriteShut :=
  inferInstanceAs (Decidable (∃ how ∈ side.shutdowns, how.writes = true))

end Side

/-- What a write raises that takes nothing: the loop of `Side::write_all` and
`Write::write_all` have texts of their own. -/
def writeZero : SideKind → IoError
  | .shared => ⟨.writeZero, "relay write made no progress"⟩
  | .serialized => ⟨.writeZero, "failed to write whole buffer"⟩

/-- What a direction returns when it finds the token cancelled. -/
def cancelledError : IoError :=
  ⟨.interrupted, "cancelled"⟩

/-- How a direction ended: at the end of its source, because it found the flag
set, with an error, with a panic, or before it began. -/
inductive Outcome where
  | halfClosed
  | stopped
  | failed (error : IoError)
  | panicked
  | unspawned (error : IoError)
deriving DecidableEq

/-- Where a direction is in `copy_direction` or in the thread around it. -/
inductive Phase where
  | unspawned
  | top
  | checked
  | reading
  | inRead
  | eof
  | halfClosing
  | writing (chunk : List Byte)
  | inWrite (chunk : List Byte) (written : Nat)
  | counting (chunk : List Byte)
  | recording (chunk : List Byte)
  | ending (outcome : Outcome) (ends : List End)
  | releasing (outcome : Outcome) (ends : List End)
  | ended (outcome : Outcome)
deriving DecidableEq

/-- A direction: its phase, its field of `RelayStats` and the calls of its
callback; the chunks it read, those it wrote whole and all bytes it wrote; and
how many reads and writes it began. -/
structure Lane where
  phase : Phase := .unspawned
  stats : Nat := 0
  records : List Nat := []
  chunks : List (List Byte) := []
  delivered : List (List Byte) := []
  written : List Byte := []
  reads : Nat := 0
  writes : Nat := 0
deriving DecidableEq

/-- `relay_with` once its hook is registered; `hook` is what the hook of a
cancelled token has still to release. -/
structure Relay where
  lanes : Direction → Lane := fun _ => {}
  sides : End → Side
  accounting : Direction → Bool
  cancelled : Bool := false
  finished : Bool := false
  hook : List End := []

/-- What happens next: the thread is spawned or cannot be, a direction goes on,
a transport answers a read or a write, foreign code panics under a direction,
the token is cancelled, or its hook goes on. -/
inductive Action where
  | spawn (error : Option IoError)
  | step (direction : Direction)
  | read (direction : Direction) (result : Except IoError (List Byte))
  | write (direction : Direction) (result : Except IoError Nat)
  | panic (direction : Direction)
  | cancel
  | hook

namespace Relay

/-- Change a direction. -/
def onLane (relay : Relay) (direction : Direction) (change : Lane → Lane) : Relay :=
  { relay with
    lanes := Function.update relay.lanes direction (change (relay.lanes direction)) }

/-- A direction comes to another phase. -/
def enter (relay : Relay) (direction : Direction) (phase : Phase) : Relay :=
  relay.onLane direction fun lane => { lane with phase := phase }

/-- Change a side. -/
def onSide (relay : Relay) (side : End) (change : Side → Side) : Relay :=
  { relay with sides := Function.update relay.sides side (change (relay.sides side)) }

/-- `RelayAccounting::record`. -/
def record (relay : Relay) (direction : Direction) (bytes : Nat) : Relay :=
  if relay.accounting direction then
    relay.onLane direction fun lane => { lane with records := lane.records ++ [bytes] }
  else relay

/-- The thread of the upstream direction is spawned, and both directions begin;
or the caller's thread sets the flag, releases both sides and returns. -/
def spawn (relay : Relay) (error : Option IoError) : Relay :=
  if (relay.lanes .upstream).phase = .unspawned ∧ (relay.lanes .downstream).phase = .unspawned then
    match error with
    | none => (relay.enter .upstream .top).enter .downstream .top
    | some error =>
        ({ relay with finished := true }.enter .upstream (.ended (.unspawned error))).enter
          .downstream (.releasing (.unspawned error) [.a, .b])
  else relay

/-- A step of `copy_direction` that needs no answer. -/
def step (relay : Relay) (direction : Direction) : Relay :=
  match (relay.lanes direction).phase with
  | .top =>
      if relay.cancelled then
        relay.enter direction (.ending (.failed cancelledError) [direction.src, direction.dst])
      else relay.enter direction .checked
  | .checked =>
      if relay.finished then relay.enter direction (.ended .stopped)
      else relay.enter direction .reading
  | .reading =>
      if (relay.sides direction.src).Available then
        (relay.onSide direction.src fun side => side.lock direction).onLane direction
          fun lane => { lane with phase := .inRead, reads := lane.reads + 1 }
      else relay
  | .eof =>
      if relay.cancelled then
        relay.enter direction (.ending (.failed cancelledError) [direction.dst])
      else relay.enter direction .halfClosing
  | .halfClosing =>
      (relay.onSide direction.dst fun side => side.shutdown .write).enter direction
        (.ended .halfClosed)
  | .writing chunk =>
      if (relay.sides direction.dst).Available then
        (relay.onSide direction.dst fun side => side.lock direction).onLane direction
          fun lane => { lane with phase := .inWrite chunk 0, writes := lane.writes + 1 }
      else relay
  | .counting chunk =>
      relay.onLane direction fun lane =>
        { lane with phase := .recording chunk, stats := lane.stats + chunk.length }
  | .recording chunk => (relay.record direction chunk.length).enter direction .top
  | .ending outcome ends =>
      { relay with finished := true }.enter direction (.releasing outcome ends)
  | .releasing outcome (side :: ends) =>
      (relay.onSide side Side.release).enter direction (.releasing outcome ends)
  | .releasing outcome [] => relay.enter direction (.ended outcome)
  | .unspawned | .inRead | .inWrite _ _ | .ended _ => relay

/-- The source answers a read with at most a buffer of bytes, or with an error. -/
def read (relay : Relay) (direction : Direction) (result : Except IoError (List Byte)) : Relay :=
  match (relay.lanes direction).phase with
  | .inRead =>
      let unlocked := relay.onSide direction.src Side.unlock
      match result with
      | .ok [] => unlocked.enter direction .eof
      | .ok chunk =>
          if relayBufSize < chunk.length then relay
          else
            unlocked.onLane direction fun lane =>
              { lane with phase := .writing chunk, chunks := lane.chunks ++ [chunk] }
      | .error error =>
          if error.kind.isReadIntervalElapsed then unlocked.enter direction .top
          else unlocked.enter direction (.ending (.failed error) [direction.src, direction.dst])
  | _ => relay

/-- The destination answers a write with how many of the remaining bytes it
took, or with an error.  `Write::write_all` goes on after an interruption. -/
def write (relay : Relay) (direction : Direction) (result : Except IoError Nat) : Relay :=
  match (relay.lanes direction).phase with
  | .inWrite chunk written =>
      let unlocked := relay.onSide direction.dst Side.unlock
      match result with
      | .ok 0 =>
          unlocked.enter direction
            (.ending (.failed (writeZero (relay.sides direction.dst).kind))
              [direction.src, direction.dst])
      | .ok count =>
          if chunk.length < written + count then relay
          else if written + count = chunk.length then
            unlocked.onLane direction fun lane =>
              { lane with
                phase := .counting chunk
                delivered := lane.delivered ++ [chunk]
                written := lane.written ++ (chunk.drop written).take count }
          else
            relay.onLane direction fun lane =>
              { lane with
                phase := .inWrite chunk (written + count)
                written := lane.written ++ (chunk.drop written).take count }
      | .error error =>
          if (relay.sides direction.dst).kind = .serialized ∧ error.kind = .interrupted then relay
          else unlocked.enter direction (.ending (.failed error) [direction.src, direction.dst])
  | _ => relay

/-- Foreign code panics under a direction: a transport, or its callback.  The
guard of a lock is dropped, and the thread sets the flag and releases both
sides; nothing handles a panic of what it calls there. -/
def panic (relay : Relay) (direction : Direction) : Relay :=
  match (relay.lanes direction).phase with
  | .inRead =>
      (relay.onSide direction.src Side.unlock).enter direction (.ending .panicked [.a, .b])
  | .inWrite _ _ =>
      (relay.onSide direction.dst Side.unlock).enter direction (.ending .panicked [.a, .b])
  | .halfClosing => relay.enter direction (.ending .panicked [.a, .b])
  | .recording chunk =>
      if relay.accounting direction then
        (relay.record direction chunk.length).enter direction (.ending .panicked [.a, .b])
      else relay
  | .releasing .panicked _ | .releasing (.unspawned _) _ => relay
  | .releasing _ _ => relay.enter direction (.ending .panicked [.a, .b])
  | _ => relay

/-- `CancellationToken::cancel`: the first call sets the token and runs the hook. -/
def cancel (relay : Relay) : Relay :=
  if relay.cancelled then relay else { relay with cancelled := true, hook := [.a, .b] }

/-- The hook releases the next side. -/
def runHook (relay : Relay) : Relay :=
  match relay.hook with
  | [] => relay
  | side :: ends => { relay with hook := ends }.onSide side Side.release

/-- The next state. -/
def next (relay : Relay) : Action → Relay
  | .spawn error => relay.spawn error
  | .step direction => relay.step direction
  | .read direction result => relay.read direction result
  | .write direction result => relay.write direction result
  | .panic direction => relay.panic direction
  | .cancel => relay.cancel
  | .hook => relay.runHook

/-- A relay between two sides, with the callbacks that there are. -/
def start (kinds : End → SideKind) (accounting : Direction → Bool) : Relay :=
  { sides := fun side => { kind := kinds side }, accounting := accounting }

/-- What `relay_with` returns: `RelayStats` with the bytes copied up and down,
or the error that comes first. -/
def result? (relay : Relay) : Option (Except IoError (Nat × Nat)) :=
  match (relay.lanes .upstream).phase, (relay.lanes .downstream).phase with
  | .ended (.unspawned error), .ended _ => some (.error error)
  | .ended .panicked, .ended _ =>
      some (.error ⟨.other, "upstream relay direction panicked"⟩)
  | .ended _, .ended .panicked =>
      some (.error ⟨.other, "downstream relay direction panicked"⟩)
  | .ended up, .ended down =>
      if relay.cancelled then some (.error ⟨.interrupted, "relay cancelled"⟩)
      else
        match up, down with
        | .failed error, _ | _, .failed error => some (.error error)
        | _, _ => some (.ok ((relay.lanes .upstream).stats, (relay.lanes .downstream).stats))
  | _, _ => none

end Relay

end Corduit.Common.Stream
