import Corduit.Transition.Threads

/-!
# Cancellation tokens

A flag that is set once, and a condition variable for those who wait for it.  The
flag is set outside the mutex of the condition variable, so that every access to
it, every acquisition of the mutex, every wait and every notification is a step of
its own.
-/

namespace Corduit.Common.Cancel

open Transition.Threads

/-- `Inner`: the flag, and whether some thread holds `wake`. -/
structure Inner where
  cancelled : Bool := false
  locked : Bool := false
deriving DecidableEq

/-- The two functions that park. -/
inductive Wait where
  | wait
  | waitCancelled
deriving DecidableEq

/-- The calls on a token. -/
inductive Call where
  | cancel
  | waits (call : Wait)
  | isCancelled
deriving DecidableEq

/-- What a call has returned. -/
inductive Outcome where
  | cancel
  | wait (result : Bool)
  | waitCancelled
  | isCancelled (result : Bool)
deriving DecidableEq

/-- What a thread does next; a thread that has returned keeps what the flag was
then. -/
inductive Place where
  /-- `cancel`: swap the flag. -/
  | swapping
  /-- `cancel`: lock `wake`. -/
  | locking
  /-- `cancel`: notify, and drop the guard. -/
  | notifying
  /-- `cancel`: lock `hooks`, take them and run them. -/
  | takingHooks
  /-- Read the flag for the first time. -/
  | checking (call : Wait)
  /-- Lock `wake`. -/
  | entering (call : Wait)
  /-- `wait_cancelled`: read the flag with the guard. -/
  | rechecking
  /-- Wait, which drops the guard. -/
  | parking (call : Wait)
  /-- Asleep. -/
  | parked (call : Wait)
  /-- Lock `wake` again, and drop the guard. -/
  | woken (call : Wait)
  /-- `wait`: read the flag for its result. -/
  | rereading
  /-- `is_cancelled`: read the flag. -/
  | reading
  | returned (outcome : Outcome) (cancelled : Bool)
deriving DecidableEq

/-- Where a call begins. -/
def enter : Call → Place
  | .cancel => .swapping
  | .waits call => .checking call
  | .isCancelled => .reading

/-- A wakeup, by a notification, by the timeout or for no reason. -/
def wake : Place → Place
  | .parked call => .woken call
  | place => place

/-- What a wait returns for a flag that is set. -/
def Wait.cancelled : Wait → Outcome
  | .wait => .wait true
  | .waitCancelled => .waitCancelled

/-- A thread moves and changes nothing else. -/
def moves (inner : Inner) (place : Place) : Option (Effect Inner Place) :=
  some { shared := inner, place := place }

/-- The lock is taken, or the thread is blocked. -/
def acquires (inner : Inner) (place : Place) : Option (Effect Inner Place) :=
  if inner.locked then none else moves { inner with locked := true } place

/-- The lock is taken and dropped, or the thread is blocked. -/
def passes (inner : Inner) (place : Place) : Option (Effect Inner Place) :=
  if inner.locked then none else moves inner place

/-- The next step of a thread. -/
def advance (inner : Inner) : Place → Option (Effect Inner Place)
  | .swapping =>
      if inner.cancelled then moves inner (.returned .cancel true)
      else moves { inner with cancelled := true } .locking
  | .locking => acquires inner .notifying
  | .notifying =>
      some { shared := { inner with locked := false }, place := .takingHooks, notifies := true }
  | .takingHooks => moves inner (.returned .cancel inner.cancelled)
  | .checking call =>
      if inner.cancelled then moves inner (.returned call.cancelled true)
      else moves inner (.entering call)
  | .entering .wait => acquires inner (.parking .wait)
  | .entering .waitCancelled => acquires inner .rechecking
  | .rechecking =>
      if inner.cancelled then
        moves { inner with locked := false } (.returned .waitCancelled true)
      else moves inner (.parking .waitCancelled)
  | .parking call => moves { inner with locked := false } (.parked call)
  | .parked _ => none
  | .woken .wait => passes inner .rereading
  | .woken .waitCancelled => passes inner (.returned .waitCancelled inner.cancelled)
  | .rereading => moves inner (.returned (.wait inner.cancelled) inner.cancelled)
  | .reading => moves inner (.returned (.isCancelled inner.cancelled) inner.cancelled)
  | .returned _ _ => none

/-- A token and the threads that use it. -/
abbrev CancellationToken :=
  Pool Inner Place

namespace CancellationToken

/-- A token that nobody has cancelled. -/
def new : CancellationToken :=
  ⟨{}, []⟩

/-- One step of one thread. -/
def step : CancellationToken → Action Call → CancellationToken :=
  Transition.Threads.step enter advance wake

end CancellationToken

end Corduit.Common.Cancel
